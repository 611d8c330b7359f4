import ScriptHost.Proofs.Analysis.Answers
import ScriptHost.Proofs.Syntax.TidyTree

/-!
# Where a name stands in a script

The references to a name in a script are collected by a walk over its tree.  They are the places of all nodes of the
tree that are a name with that text (`places_references`).  Since trees are tidy, these are in the order of the text, and
the name is found again from every byte of each of them (`target?_of_names`).
-/

namespace ScriptHost.Analysis.SyntaxEngine

open ScriptHost.Syntax ScriptHost.Text

/-- Whether a node of a text is a certain name. -/
def names (source name : String) (n : Node) : Bool := isNameKind n.kind && n.textIn source == name

/-- The places in a text where a name stands. -/
def placesIn (fileName source name : String) : List Span :=
  ((Script.tree (dialectOf fileName) source).nodes.filter (names source name)).map fun n => .ofBounds n.start n.stop

variable {fileName : String} {version : Version} {source name : String} {n : Node}

/-- A name in a text is a token with that name as its text, and so it is a construct. -/
theorem of_names (hn : n ∈ (Script.tree (dialectOf fileName) source).nodes) (hname : names source name n = true) :
    n.isNamed = true ∧ n.children = [] ∧ n.start < n.stop ∧ n.textIn source = name := by
  unfold names at hname
  rw [Bool.and_eq_true, beq_iff_eq] at hname
  obtain ⟨hnamed, hchildren, hlt⟩ :=
    ((Script.tidy_tree (dialectOf fileName) source).of_mem_nodes hn).1.of_isName hname.1
  exact ⟨hnamed, hchildren, hlt, hname.2⟩

/-- The references to a name in a script are the places where it stands. -/
theorem places_references (fileName : String) (version : Version) (source name : String) :
    (ParsedScript.references (.read fileName version source) name).map (fun r => (r.fileName, r.span)) =
      (placesIn fileName source name).map (fileName, ·) := by
  let place (n : Node) : String × Span := (fileName, .ofBounds n.start n.stop)
  -- names are constructs, so the walk meets them all
  have hnamed : ∀ n ∈ (Script.tree (dialectOf fileName) source).nodes,
      (names source name n && n.isNamed) = names source name n := by
    intro n hn
    cases hname : names source name n with
    | false => rfl
    | true => rw [(of_names hn hname).1, Bool.and_true]
  calc (ParsedScript.references (.read fileName version source) name).map (fun r => (r.fileName, r.span))
      = (Script.tree (dialectOf fileName) source).walk.filterMap
          ((fun n => if names source name n then some (place n) else none) ∘ Prod.snd) := by
        rw [ParsedScript.references, List.map_filterMap]
        refine List.filterMap_congr fun x _ => ?_
        show Option.map _ (if names source name x.2 then _ else none) = if names source name x.2 then _ else none
        split <;> rfl
    _ = (((Script.tree (dialectOf fileName) source).nodes.filter Node.isNamed).filter
          (names source name)).map place := by
        rw [← List.filterMap_map, Node.map_snd_walk rfl, ← List.filterMap_filter, ← List.filterMap_eq_map]
        rfl
    _ = (placesIn fileName source name).map (fileName, ·) := by
        rw [List.filter_filter, List.filter_congr hnamed, placesIn, List.map_map]
        rfl

/-- The places of a name follow one another in the text, and none is empty. -/
theorem pairwise_placesIn (fileName source name : String) :
    (placesIn fileName source name).Pairwise (fun s s' => s.stop ≤ s'.start) ∧
      ∀ s ∈ placesIn fileName source name, 0 < s.length := by
  have hnames : ∀ n ∈ (Script.tree (dialectOf fileName) source).nodes.filter (names source name),
      n.children = [] ∧ n.start < n.stop := by
    intro n hn
    obtain ⟨hn, hname⟩ := List.mem_filter.1 hn
    obtain ⟨-, hchildren, hlt, -⟩ := of_names hn hname
    exact ⟨hchildren, hlt⟩
  have htokens := (Script.tidy_tree (dialectOf fileName) source).pairwise_tokens
  constructor
  · refine List.pairwise_map.2 ((htokens.sublist List.filter_sublist).imp_of_mem fun {a b} ha hb hab => ?_)
    have hstop := hab (hnames a ha).1 (hnames b hb).1
    have hlt := (hnames a ha).2
    show a.start + (a.stop - a.start) ≤ b.start
    omega
  · intro s hs
    obtain ⟨n, hn, rfl⟩ := List.mem_map.1 hs
    exact Nat.sub_pos_of_lt (hnames n hn).2

/-- A name is found from each of its bytes.  The byte is passed to the tree in 32 bits. -/
theorem target?_of_names (hn : n ∈ (Script.tree (dialectOf fileName) source).nodes)
    (hname : names source name n = true) {offset : Nat} (hstart : n.start ≤ offset) (hstop : offset < n.stop)
    (hoffset : offset < Nat.pow 2 32) :
    ParsedScript.target? (.read fileName version source) offset = some ⟨name, .ofBounds n.start n.stop⟩ := by
  obtain ⟨-, hchildren, -, htext⟩ := of_names hn hname
  have hlast : min (byteBehind offset) source.utf8ByteSize % Nat.pow 2 32 ≤ n.stop :=
    (Nat.mod_le ..).trans ((Nat.min_le_left ..).trans ((Nat.mod_le ..).trans hstop))
  have hfound := (Script.tidy_tree (dialectOf fileName) source).smallestCovering_eq hn hchildren hstart hstop hlast
  have hkind : isNameKind n.kind = true := (Bool.and_eq_true _ _).mp hname |>.1
  unfold ParsedScript.target?
  dsimp only [ParsedScript.read]
  rw [Nat.mod_eq_of_lt hoffset, hfound, if_pos hkind, htext]

end ScriptHost.Analysis.SyntaxEngine
