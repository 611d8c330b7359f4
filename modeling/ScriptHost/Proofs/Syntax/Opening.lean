import ScriptHost.Proofs.Syntax.First
import ScriptHost.Proofs.Syntax.Lines

/-!
# The first statement of a text

The line that names an interpreter can only be the first of a text, for no statement begins like it
(`not_hashBang_of_readStatement`).  What comes first in a text is the first statement of its tree, and where nothing can
be read the first statement is an error (`tree_first`).
-/

namespace ScriptHost.Syntax

/-! ### Tokens -/

/-- Whether a token takes nothing of the line that names an interpreter. -/
def Lexeme.barsHashBang : Lexeme → Bool
  | keyword w => w != ""
  | symbol (c :: _) _ => c != '#'
  | word _ | privateName | number => true
  | _ => false

private theorem Lexeme.take?_hashBang {l : Lexeme} (hl : l.barsHashBang = true) (cs : List Char) :
    l.take? "" ('#' :: '!' :: cs) = none := by
  unfold barsHashBang at hl
  split at hl
  · rename_i w
    rw [take?, if_neg (by simpa using hl)]
  · rename_i c rest barring
    have hc : (c == '#') = false := by simpa using hl
    rw [take?, List.isPrefixOf?, hc]
    rfl
  · rfl
  · rfl
  · rfl
  · cases hl

namespace Script

/-! ### Statements -/

/-- The symbols that read such a token first; decorators may also be left out. -/
def barsHashBang (sure : Bool) : Symbol → Bool
  | .decorators => !sure
  | _ => true

private theorem starts_barsHashBang (d : Dialect) (sure : Bool) (x : Symbol) (hx : barsHashBang sure x = true) :
    (grammar d x).starts Lexeme.barsHashBang barsHashBang sure = true := by
  cases x with
  | binary level => cases sure <;> cases level using cases_level <;> rfl
  | decorators =>
    obtain rfl : sure = false := by simpa [barsHashBang] using hx
    rfl
  | _ => cases sure <;> cases d <;> rfl

variable {d : Dialect} {opening : Bool} {c : Cursor} {s : State} {text taken : List Char}

/-- No statement begins like the line that names an interpreter. -/
theorem not_hashBang_of_readStatement (h : readStatement d ⟨0, text⟩ = .matched s) :
    ¬ ['#', '!'] <+: (Gap.scan ⟨0, text⟩).next.rest := by
  rintro ⟨more, hmore⟩
  have hstarts : (Rule.ref Symbol.statement).starts Lexeme.barsHashBang barsHashBang true = true := rfl
  have hfirst := ((Rule.derives_of_read h).of_starts (leads_grammar d).recasts (starts_barsHashBang d) hstarts
    (List.forall_mem_nil _) (.of_behind (.refl _) _ _)).resolve_left fun h => Bool.noConfusion h.1
  obtain ⟨l, taken, left, hl, htake, -⟩ := hfirst.token
  have hword : (State.behind ⟨0, text⟩ [] []).word = "" := by
    unfold State.behind
    dsimp only
    rw [← hmore]
    rfl
  rw [hword] at htake
  change l.take? "" (Gap.scan ⟨0, text⟩).next.rest = _ at htake
  rw [← hmore] at htake
  exact absurd ((l.take?_hashBang hl more).symm.trans htake) nofun

/-- Where the line that names an interpreter does not come next, a statement is read. -/
private theorem readNext_of_not_hashBang (h : ¬ ['#', '!'] <+: (Gap.scan c).next.rest) :
    readNext d opening c = readStatement d c := by
  cases hfirst : (Rule.leaf "hash_bang_line" .hashBang : Part).read (grammar d) c with
  | failed reach => exact readNext_of_failed hfirst
  | matched s =>
    obtain ⟨taken, left, htake, -⟩ := State.of_token _ _ (Rule.of_read_token hfirst)
    unfold Lexeme.take? at htake
    dsimp only at htake
    split at htake
    · rename_i more hmore
      exact absurd ⟨more, hmore.symm⟩ h
    · cases htake

/-- It makes a difference only to the line that names an interpreter whether a text begins with it. -/
theorem beginsWith_iff : BeginsWith d opening text taken ↔
    BeginsWith d true text taken ∧ (opening = true ∨ ¬ ['#', '!'] <+: text) := by
  cases opening with
  | true => simp
  | false =>
    constructor
    · rintro ⟨s, n, hread, hnodes, hstart, hstop⟩
      obtain ⟨n₀, taken₀, hn₀⟩ := covers_readStatement hread
      obtain rfl : n = n₀ := List.singleton_inj.1 (hnodes.symm.trans hn₀.nodes)
      have hbang := not_hashBang_of_readStatement hread
      refine ⟨⟨s, n, ?_, hnodes, hstart, hstop⟩, .inr ?_⟩
      · rwa [readNext_of_not_hashBang hbang]
      · rwa [rest_scan_of_offset (hn₀.start ▸ hstart)] at hbang
    · rintro ⟨⟨s, n, hread, hnodes, hstart, hstop⟩, hbang⟩
      obtain ⟨n₀, taken₀, hn₀⟩ := covers_readNext hread
      obtain rfl : n = n₀ := List.singleton_inj.1 (hnodes.symm.trans hn₀.nodes)
      have hnext : ¬ ['#', '!'] <+: (Gap.scan ⟨0, text⟩).next.rest := by
        rw [rest_scan_of_offset (hn₀.start ▸ hstart)]
        exact hbang.resolve_left Bool.false_ne_true
      refine ⟨s, n, ?_, hnodes, hstart, hstop⟩
      rwa [readNext_of_not_hashBang hnext] at hread ⊢

/-! ### Trees -/

private theorem head?_reverse_of_suffix {n : Node} {nodes : List Node} (h : [n] <:+ nodes) :
    nodes.reverse.head? = some n := by
  obtain ⟨later, rfl⟩ := h
  rw [List.reverse_append]
  rfl

/-- What comes first in a text is read first. -/
private theorem suffix_of_readNext {n : Node} (hread : readNext d true ⟨0, text⟩ = .matched s)
    (hnodes : s.nodes = [n]) : [n] <:+ (readAll d (text.length + 1) (beginning d text)).statements := by
  unfold beginning
  cases hfirst : (Rule.leaf "hash_bang_line" .hashBang : Part).read (grammar d) ⟨0, text⟩ with
  | matched s' =>
    obtain rfl := Reading.matched.inj ((readNext_of_matched hfirst).symm.trans hread)
    exact hnodes ▸ suffix_readAll d _ ⟨_, _, _⟩
  | failed reach =>
    obtain ⟨n', taken, hn⟩ := covers_readNext hread
    have hne : (Gap.scan ⟨0, text⟩).next.rest.isEmpty = false := by
      rw [hn.rest, List.isEmpty_eq_false_iff]
      exact List.append_ne_nil_of_left_ne_nil hn.ne_nil _
    rw [readNext_of_failed hfirst] at hread
    unfold readAll
    dsimp only
    rw [if_neg (by rw [hne]; exact Bool.false_ne_true), hread]
    dsimp only
    rw [List.append_nil, ← hnodes]
    exact suffix_readAll d _ ⟨_, _, _⟩

/-- Where nothing can be read at the beginning of a text, an error is put first, unless there is nothing to be read. -/
private theorem error_of_readNext {reach : Nat} (hread : readNext d true ⟨0, text⟩ = .failed reach) :
    (readAll d (text.length + 1) (beginning d text)).statements = [] ∨
      ∃ n : Node, n.kind = "ERROR" ∧ n.isNamed = true ∧
        [n] <:+ (readAll d (text.length + 1) (beginning d text)).statements := by
  unfold beginning
  cases hfirst : (Rule.leaf "hash_bang_line" .hashBang : Part).read (grammar d) ⟨0, text⟩ with
  | matched s' =>
    rw [readNext_of_matched hfirst] at hread
    cases hread
  | failed _ =>
    rw [readNext_of_failed hfirst] at hread
    unfold readAll
    dsimp only
    split
    · exact .inl rfl
    · rw [hread]
      exact .inr ⟨_, rfl, rfl, suffix_readAll d _ ⟨_, [_], _⟩⟩

/-- At the top of a tree, to which comments are added, the first statement is what comes first in the text; where
nothing can be read there, it is an error, if there is a statement at all. -/
theorem tree_first (d : Dialect) (text : String) : ∃ comments nodes,
    tree d text = .branch "program" none 0 text.utf8ByteSize (weaveAll comments nodes) ∧
      (∀ {s n}, readNext d true ⟨0, text.toList⟩ = .matched s → s.nodes = [n] → nodes.head? = some n) ∧
      ∀ {reach}, readNext d true ⟨0, text.toList⟩ = .failed reach →
        ∀ n ∈ nodes.head?, n.kind = "ERROR" ∧ n.isNamed = true := by
  let whole := readAll d (text.toList.length + 1) (beginning d text.toList)
  refine ⟨whole.comments.reverse, whole.statements.reverse, rfl, fun hread hnodes => ?_, fun hread n hn => ?_⟩
  · exact head?_reverse_of_suffix (suffix_of_readNext hread hnodes)
  · rcases error_of_readNext hread with hnone | ⟨n', hkind, hnamed, hsuffix⟩
    · rw [show whole.statements = [] from hnone] at hn
      cases hn
    · obtain rfl : n' = n := Option.some.inj ((head?_reverse_of_suffix hsuffix).symm.trans hn)
      exact ⟨hkind, hnamed⟩

end Script

end ScriptHost.Syntax
