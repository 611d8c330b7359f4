import Mathlib.Data.List.DropRight
import ScriptHost.Proofs.Syntax.Derivation
import ScriptHost.Proofs.Syntax.Layout

/-!
# Places that no semicolon closes

A text is tight if what stands last in it, apart from white space, is no semicolon.  Most tokens leave the text up to
them tight, and so does what stands between two tokens, unless a line ends there: only a line comment may end with a
semicolon.  A place is sealed if the text before it is tight or a line ends there (`Sealed`), so that places behind
comments are sealed as well.
-/

namespace ScriptHost.Syntax

open ScriptHost.Text

/-! ### Tight texts -/

/-- What stands last in a text, apart from white space, is no semicolon. -/
def Tight (cs : List Char) : Prop := (cs.rdropWhile isBlank).getLast? ≠ some ';'

/-- The characters that are neither white space nor a semicolon. -/
def isSolid (c : Char) : Bool := c != ';' && !isBlank c

private theorem tight_concat {c : Char} (hc : isSolid c = true) (cs : List Char) : Tight (cs ++ [c]) := by
  rw [isSolid, Bool.and_eq_true, bne_iff_ne, Bool.not_eq_true'] at hc
  rw [Tight, List.rdropWhile_concat_neg _ _ _ (by rw [hc.2]; exact Bool.false_ne_true), List.getLast?_concat]
  simpa using hc.1

private theorem tight_concat_blank {c : Char} (hc : isBlank c = true) {cs : List Char} : Tight
    (cs ++ [c]) ↔ Tight cs := by
  rw [Tight, Tight, List.rdropWhile_concat_pos _ _ _ hc]

private theorem tight_append {cs taken : List Char} (h : taken.getLast?.any isSolid = true) : Tight (cs ++ taken) := by
  obtain ⟨c, hc, hsolid⟩ := (Option.any_eq_true ..).1 h
  obtain ⟨front, rfl⟩ := List.getLast?_eq_some_iff.1 hc
  rw [← List.append_assoc]
  exact tight_concat hsolid _

theorem tight_of_append {cs cs' : List Char} (h : Tight (cs ++ cs')) : Tight cs' := by
  induction cs' using List.reverseRecOn with
  | nil => exact nofun
  | append_singleton front c ih =>
    rw [← List.append_assoc] at h
    cases hc : isBlank c with
    | true =>
      rw [tight_concat_blank hc] at h ⊢
      exact ih h
    | false =>
      have hblank : ¬ isBlank c = true := by rw [hc]; exact Bool.false_ne_true
      rw [Tight, List.rdropWhile_concat_neg _ _ _ hblank, List.getLast?_concat] at h ⊢
      exact h

/-! ### Tokens -/

private theorem isSolid_of_isWordPart {c : Char} (h : isWordPart c = true) : isSolid c = true := by
  rw [isWordPart, Bool.not_eq_true', Bool.or_eq_false_iff, Bool.or_eq_false_iff] at h
  obtain ⟨⟨-, hpunctuation⟩, hspacing⟩ := h
  rw [isSolid, Bool.and_eq_true, bne_iff_ne, Bool.not_eq_true']
  constructor
  · rintro rfl
    exact absurd hpunctuation (by decide)
  · simp only [isSpacing, Bool.or_eq_false_iff] at hspacing
    exact hspacing.1.1.1

private theorem isAlphanum_iff (c : Char) : c.isAlphanum = true ↔
    (65 ≤ c.toNat ∧ c.toNat ≤ 90) ∨ (97 ≤ c.toNat ∧ c.toNat ≤ 122) ∨ (48 ≤ c.toNat ∧ c.toNat ≤ 57) := by
  have hranges : c.isAlphanum = ((decide (65 ≤ c.val ∧ c.val ≤ 90) ||
      decide (97 ≤ c.val) && decide (c.val ≤ 122)) || decide (48 ≤ c.val) && decide (c.val ≤ 57)) := rfl
  rw [hranges]
  simp only [Bool.or_eq_true, Bool.and_eq_true, decide_eq_true_eq, UInt32.le_iff_toNat_le, or_assoc]
  rfl

private theorem isSolid_of_isAlphanum {c : Char} (h : c.isAlphanum = true) : isSolid c = true := by
  rw [isSolid, Bool.and_eq_true, bne_iff_ne, Bool.not_eq_true']
  constructor
  · rintro rfl
    exact absurd h (by decide)
  · rw [isAlphanum_iff] at h
    simp [isBlank]
    omega

private theorem isAlphanum_of_isDigit {c : Char} (h : c.isDigit = true) : c.isAlphanum = true := by
  rw [Char.isAlphanum, h, Bool.or_true]

private theorem isAlphanum_of_isHexDigit {c : Char} (h : isHexDigit c = true) : c.isAlphanum = true := by
  simp only [isHexDigit, Bool.or_eq_true, Bool.and_eq_true, decide_eq_true_eq, Char.le_def] at h
  rcases h with (h | h) | h
  · exact isAlphanum_of_isDigit h
  · exact (isAlphanum_iff c).2 (.inr (.inl ⟨h.1, h.2.trans (by decide)⟩))
  · exact (isAlphanum_iff c).2 (.inl ⟨h.1, h.2.trans (by decide)⟩)

/-- Characters none of which is white space or a semicolon. -/
def AllSolid (cs : List Char) : Prop := ∀ c ∈ cs, isSolid c = true

namespace AllSolid

private theorem nil : AllSolid [] := nofun

private theorem cons {c : Char} {cs : List Char} (hc : isSolid c = true) (h : AllSolid cs) : AllSolid (c :: cs) :=
  List.forall_mem_cons.2 ⟨hc, h⟩

private theorem append {cs cs' : List Char} (h : AllSolid cs) (h' : AllSolid cs') : AllSolid (cs ++ cs') :=
  List.forall_mem_append.2 ⟨h, h'⟩

private theorem span {p : Char → Bool} (hp : ∀ c, p c = true → isSolid c = true) (cs : List Char) : AllSolid
    (cs.span p).1 := by
  rw [List.span_eq_takeWhile_dropWhile]
  exact fun c hc => hp c (List.mem_takeWhile_imp hc)

private theorem any_getLast? {cs : List Char} (h : AllSolid cs) (hne : cs ≠ []) : cs.getLast?.any isSolid = true := by
  rw [List.getLast?_eq_some_getLast hne]
  exact h _ (List.getLast_mem hne)

private theorem takeDigits {p : Char → Bool} (hp : ∀ c, p c = true → c.isAlphanum = true) (cs : List Char) :
    AllSolid (takeDigits p cs).1 := by
  refine .span (fun c hc => ?_) cs
  rcases Bool.or_eq_true_iff.1 hc with hc | hc
  · exact isSolid_of_isAlphanum (hp c hc)
  · rw [beq_iff_eq.1 hc]
    decide

private theorem takeExponent (cs : List Char) : AllSolid (takeExponent cs).1 := by
  have hdigits : ∀ cs, AllSolid (Syntax.takeDigits Char.isDigit cs).1 := .takeDigits fun _ => isAlphanum_of_isDigit
  have hmark : ∀ {e : Char}, (e == 'e' || e == 'E') = true → isSolid e = true := by
    intro e he
    rcases Bool.or_eq_true_iff.1 he with he | he <;> rw [beq_iff_eq.1 he] <;> decide
  unfold Syntax.takeExponent
  split
  · split
    · rename_i e sign d rest h
      simp only [Bool.and_eq_true] at h
      have hsign : isSolid sign = true := by
        rcases Bool.or_eq_true_iff.1 h.1.2 with hs | hs <;> rw [beq_iff_eq.1 hs] <;> decide
      exact .cons (hmark h.1.1) (.cons hsign (hdigits _))
    · split
      · rename_i h
        exact .cons (hmark (Bool.and_eq_true_iff.1 h).1) (hdigits _)
      · exact .nil
  · split
    · rename_i h
      obtain ⟨he, hd⟩ := Bool.and_eq_true_iff.1 h
      exact .cons (hmark he) (.cons (isSolid_of_isAlphanum (isAlphanum_of_isDigit hd)) .nil)
    · exact .nil
  · exact .nil

private theorem takeBigMark (cs : List Char) : AllSolid (takeBigMark cs).1 := by
  unfold Syntax.takeBigMark
  split
  · exact .cons (by decide) .nil
  · exact .nil

private theorem decimal {cs taken left : List Char} (h : takeNumber?.decimal cs = some (taken, left)) :
    AllSolid taken := by
  have hdigits : ∀ cs, AllSolid (Syntax.takeDigits Char.isDigit cs).1 := .takeDigits fun _ => isAlphanum_of_isDigit
  unfold takeNumber?.decimal at h
  dsimp only at h
  split at h <;> obtain ⟨rfl, -⟩ := Prod.mk.inj (Option.some.inj h)
  · exact (hdigits _).append (.cons (by decide) .nil)
  · exact (hdigits _).append (.cons (by decide) ((hdigits _).append (takeExponent _)))
  · exact (hdigits _).append (takeExponent _)

private theorem takeNumber? {cs taken left : List Char} (h : takeNumber? cs = some (taken, left)) : AllSolid taken := by
  unfold Syntax.takeNumber? at h
  split at h
  · rename_i x d rest
    split at h
    · rename_i hx
      dsimp only at h
      obtain ⟨rfl, -⟩ := Prod.mk.inj (Option.some.inj h)
      have hmark : isSolid x = true := by
        have hmem : x ∈ ['x', 'X', 'o', 'O', 'b', 'B'] := of_decide_eq_true (Bool.and_eq_true_iff.1 hx).1
        exact List.all_eq_true.1 (by decide : ['x', 'X', 'o', 'O', 'b', 'B'].all isSolid = true) x hmem
      exact .cons (by decide) (.cons hmark ((takeDigits (fun _ => isAlphanum_of_isHexDigit) _).append (takeBigMark _)))
    · exact decimal h
  · split at h
    · dsimp only at h
      obtain ⟨rfl, -⟩ := Prod.mk.inj (Option.some.inj h)
      exact .cons (by decide) ((takeDigits (fun _ => isAlphanum_of_isDigit) _).append (takeExponent _))
    · cases h
  · split at h
    · exact decimal h
    · cases h
  · cases h

private theorem takeWordParts (cs : List Char) : AllSolid (takeWordParts cs).1 := by
  induction cs using takeWordParts.induct with
  | case1 rest _ _ _ ih =>
    rw [Syntax.takeWordParts]
    exact .cons (by decide) (.cons (by decide) ih)
  | case2 c rest hne hc _ _ _ ih =>
    rw [Syntax.takeWordParts, if_pos hc]
    · exact .cons (isSolid_of_isWordPart hc) ih
    · exact hne
  | case3 c rest hne hc =>
    rw [Syntax.takeWordParts, if_neg hc]
    · exact .nil
    · exact hne
  | case4 => exact .nil

private theorem takeWord? {cs taken left : List Char} (h : takeWord? cs = some (taken, left)) : AllSolid taken := by
  have hparts := takeWordParts cs
  unfold Syntax.takeWord? at h
  split at h
  · rwa [Option.some.inj h] at hparts
  · split at h
    · rwa [Option.some.inj h] at hparts
    · cases h
  · cases h

end AllSolid

/-- The tokens that do not end with a semicolon or white space, as far as declarations may end with them. -/
def Lexeme.seals : Lexeme → Bool
  | keyword w => w != ""
  | symbol mark _ => mark.getLast?.any isSolid
  | word _ | privateName | number | regexFlags => true
  | _ => false

/-- Such a token ends with a solid character. -/
theorem Lexeme.any_getLast?_of_seals {l : Lexeme} (hl : l.seals = true) {word : String} {cs taken left : List Char}
    (hword : word = "" ∨ ∃ left, Syntax.takeWord? cs = some (word.toList, left))
    (h : l.take? word cs = some (taken, left)) : taken.getLast?.any isSolid = true := by
  cases l with
  | keyword w =>
    obtain ⟨rfl, rfl⟩ := of_take?_keyword hword h
    rcases hword with rfl | ⟨left', htake⟩
    · cases hl
    · exact (AllSolid.takeWord? htake).any_getLast? (takeWord?_ne_nil htake)
  | symbol mark barring =>
    obtain rfl := of_take?_symbol h
    exact hl
  | word except =>
    unfold take? at h
    dsimp only at h
    split at h
    · cases h
    · exact (AllSolid.takeWord? h).any_getLast? (takeWord?_ne_nil h)
  | privateName =>
    unfold take? at h
    dsimp only at h
    split at h
    · obtain ⟨⟨name, left'⟩, htake, heq⟩ := Option.map_eq_some_iff.1 h
      obtain ⟨rfl, rfl⟩ := Prod.mk.inj heq
      exact (AllSolid.cons (by decide) (AllSolid.takeWord? htake)).any_getLast? (List.cons_ne_nil _ _)
    · cases h
  | number => exact (AllSolid.takeNumber? h).any_getLast? (takeNumber?_ne_nil h)
  | regexFlags =>
    obtain ⟨heq, hne⟩ := ifSome_eq_some h
    have hsolid : AllSolid (cs.span fun c => 'a' ≤ c && c ≤ 'z').1 := by
      refine .span (fun c hc => isSolid_of_isAlphanum ?_) cs
      obtain ⟨hlow, hhigh⟩ := Bool.and_eq_true_iff.1 hc
      have hrange : 97 ≤ c.toNat ∧ c.toNat ≤ 122 := ⟨of_decide_eq_true hlow, of_decide_eq_true hhigh⟩
      exact (isAlphanum_iff c).2 (.inr (.inl hrange))
    rw [show (cs.span fun c => 'a' ≤ c && c ≤ 'z').1 = taken from congrArg Prod.fst heq] at hsolid
    exact hsolid.any_getLast? hne
  | _ => cases hl

/-! ### Between tokens -/

/-- A place in the text `chars` is sealed for one who comes from where `front` is ahead: what stands before it is tight,
or a line ends on the way to it or right there. -/
inductive Sealed (chars front rest : List Char) : Prop where
  | tight (before : List Char) (h : before ++ rest = chars) (htight : Tight before)
  | broken (taken : List Char) {c : Char} (h : taken ++ rest = front) (hc : c ∈ taken) (hline : isLineEnd c = true)
  | atEnd (h : ∀ c ∈ rest.head?, isLineEnd c = true)

namespace Sealed

variable {chars front rest : List Char} {c : Char}

/-- White space and invisible characters keep a place sealed. -/
private theorem spacing (h : Sealed chars front (c :: rest)) (hfront : c :: rest <:+ front) (hc : isSpacing c = true) :
    Sealed chars front rest := by
  cases hline : isLineEnd c with
  | true =>
    obtain ⟨taken, htaken⟩ := hfront
    exact .broken (taken ++ [c]) (by rw [List.append_assoc]; exact htaken) (by simp) hline
  | false =>
    cases h with
    | tight before h htight =>
      refine .tight (before ++ [c]) (by rw [List.append_assoc]; exact h) ?_
      cases hblank : isBlank c with
      | true => exact (tight_concat_blank hblank).2 htight
      | false =>
        refine tight_concat ?_ before
        rw [isSolid, hblank, Bool.not_false, Bool.and_true, bne_iff_ne]
        rintro rfl
        exact absurd hc (by decide)
    | broken taken h hx hbreak =>
      exact .broken (taken ++ [c]) (by rw [List.append_assoc]; exact h) (List.mem_append_left _ hx) hbreak
    | atEnd h => exact absurd (hline.symm.trans (h c rfl)) Bool.false_ne_true

/-- The place behind a token that ends with a solid character is sealed. -/
theorem of_taken {before : List Char} (taken : List Char) (h : before ++ (taken ++ rest) = chars)
    (hsolid : taken.getLast?.any isSolid = true) : Sealed chars front rest :=
  .tight (before ++ taken) (by rw [List.append_assoc]; exact h) (tight_append hsolid)

end Sealed

namespace Gap

variable {chars front : List Char}

/-- Whether the scan of a gap leads to a sealed place. -/
def Mode.LeadsToSealed (chars front rest : List Char) : Mode → Prop
  | .spacing => Sealed chars front rest
  | .line _ _ => True
  | .block opened _ => Sealed chars front opened.rest

private theorem sealed_scanFrom (comments : List Comment) (broken : Bool) (mode : Mode) (offset : Nat) (cs : List Char)
    (hfront : front <:+ chars) (hcs : cs <:+ front) (h : mode.LeadsToSealed chars front cs) :
    Sealed chars front (scanFrom comments broken mode offset cs).next.rest := by
  have htail : ∀ {c : Char} {rest : List Char}, c :: rest <:+ front → rest <:+ front :=
    fun h => (List.suffix_cons _ _).trans h
  fun_induction scanFrom comments broken mode offset cs with
  | case1 => exact h
  | case2 comments broken offset rest ih => exact ih (htail (htail hcs)) trivial
  | case3 comments broken offset rest ih => exact ih (htail (htail hcs)) h
  | case4 comments broken offset c rest h₁ h₂ hc ih => exact ih (htail hcs) (Sealed.spacing h hcs hc)
  | case5 => exact h
  | case6 => exact .atEnd (by simp)
  | case7 comments broken start text offset c rest hc ih =>
    obtain ⟨taken, htaken⟩ := hcs
    exact ih (htail ⟨taken, htaken⟩)
      (.broken (taken ++ [c]) (by rw [List.append_assoc]; exact htaken) (by simp) hc)
  | case8 comments broken start text offset c rest hc ih => exact ih (htail hcs) trivial
  | case9 => exact h
  | case10 comments broken opened text offset rest ih =>
    obtain ⟨before, hbefore⟩ := hcs.trans hfront
    exact ih (htail (htail hcs)) (.of_taken ['*', '/'] hbefore (by decide))
  | case11 comments broken opened text offset c rest h' ih => exact ih (htail hcs) h

/-- The place of the next token is sealed if the place behind the last one is. -/
theorem sealed_scan {c : Cursor} (hc : c.rest <:+ chars) (h : Sealed chars c.rest c.rest) :
    Sealed chars c.rest (scan c).next.rest :=
  sealed_scanFrom _ _ _ _ _ hc List.suffix_rfl h

/-- Behind a comment of the text `chars` there is a sealed place. -/
def SealedBehind (chars : List Char) (k : Comment) : Prop :=
  ∃ rest, (Cursor.mk 0 chars).LeadsTo ⟨k.stop, rest⟩ ∧ Sealed chars rest rest

/-- An unfinished comment begins where the scan says. -/
def Mode.Counts (offset : Nat) : Mode → Prop
  | .spacing => True
  | .line start text => offset = start + byteLength text
  | .block opened text => offset = opened.offset + byteLength text

/-- A block comment ends with a slash, and a line comment where its line ends. -/
private theorem sealedBehind_scanFrom (comments : List Comment) (broken : Bool) (mode : Mode) (offset : Nat)
    (cs : List Char) (hcs : (Cursor.mk 0 chars).LeadsTo ⟨offset, cs⟩) (hmode : mode.Counts offset)
    (h : ∀ k ∈ comments, SealedBehind chars k) :
    ∀ k ∈ (scanFrom comments broken mode offset cs).comments, SealedBehind chars k := by
  have hend : ∀ {start offset : Nat} {text rest : List Char}, offset = start + byteLength text →
      (Cursor.mk 0 chars).LeadsTo ⟨offset, rest⟩ → Sealed chars rest rest →
        SealedBehind chars ⟨start, String.ofList text.reverse⟩ := by
    intro start offset text rest hoffset hrest hsealed
    refine ⟨rest, ?_, hsealed⟩
    rwa [Comment.stop, utf8ByteSize_ofList, byteLength_reverse, ← hoffset]
  have hone : ∀ {offset c rest}, (Cursor.mk 0 chars).LeadsTo ⟨offset, c :: rest⟩ →
      (Cursor.mk 0 chars).LeadsTo ⟨offset + c.utf8Size, rest⟩ := fun h => h.trans ⟨[_], rfl, by simp⟩
  fun_induction scanFrom comments broken mode offset cs with
  | case1 => exact h
  | case2 comments broken offset rest ih => exact ih (hone (hone hcs)) rfl h
  | case3 comments broken offset rest ih => exact ih (hone (hone hcs)) rfl h
  | case4 comments broken offset c rest h₁ h₂ hc ih => exact ih (hone hcs) trivial h
  | case5 => exact h
  | case6 comments broken start text offset =>
    exact List.forall_mem_cons.2 ⟨hend hmode hcs (.atEnd (by simp)), h⟩
  | case7 comments broken start text offset c rest hc ih =>
    refine ih (hone hcs) trivial (List.forall_mem_cons.2 ⟨hend hmode hcs (.atEnd fun x hx => ?_), h⟩)
    exact Option.some.inj hx ▸ hc
  | case8 comments broken start text offset c rest hc ih =>
    refine ih (hone hcs) ?_ h
    rw [Mode.Counts, hmode, byteLength_cons]
    omega
  | case9 => exact h
  | case10 comments broken opened text offset rest ih =>
    refine ih (hone (hone hcs)) trivial (List.forall_mem_cons.2 ⟨hend ?_ (hone (hone hcs)) ?_, h⟩)
    · rw [hmode, byteLength_cons, byteLength_cons, show '/'.utf8Size = 1 from rfl, show '*'.utf8Size = 1 from rfl]
      omega
    · obtain ⟨before, hbefore, -⟩ := hcs
      exact .of_taken ['*', '/'] hbefore.symm (by decide)
  | case11 comments broken opened text offset c rest h' ih =>
    refine ih (hone hcs) ?_ h
    rw [Mode.Counts, hmode, byteLength_cons]
    omega

private theorem sealedBehind_scan {c : Cursor} (hc : (Cursor.mk 0 chars).LeadsTo c) :
    ∀ k ∈ (scan c).comments, SealedBehind chars k :=
  sealedBehind_scanFrom _ _ _ _ _ hc trivial (List.forall_mem_nil _)

end Gap

/-! ### The end of a statement -/

/-- Of two places in a text one comes first. -/
private theorem Cursor.LeadsTo.total {start c c' : Cursor} (h : start.LeadsTo c) (h' : start.LeadsTo c') :
    c.LeadsTo c' ∨ c'.LeadsTo c := by
  obtain ⟨taken, hrest, hoffset⟩ := h
  obtain ⟨taken', hrest', hoffset'⟩ := h'
  rcases List.append_eq_append_iff.1 (hrest.symm.trans hrest') with ⟨more, rfl, hmore⟩ | ⟨more, rfl, hmore⟩
  · exact .inl ⟨more, hmore, by rw [hoffset', hoffset, byteLength_append, Nat.add_assoc]⟩
  · exact .inr ⟨more, hmore, by rw [hoffset', hoffset, byteLength_append, Nat.add_assoc]⟩

theorem Cursor.LeadsTo.eq_of_le {c c' : Cursor} (h : c.LeadsTo c') (hle : c'.offset ≤ c.offset) : c' = c := by
  obtain ⟨taken, hrest, hoffset⟩ := h
  have hempty : taken = [] := by
    by_contra hne
    have hpos := byteLength_pos hne
    omega
  subst hempty
  cases c
  cases c'
  simp_all

theorem Cursor.LeadsTo.of_le {start c c' : Cursor} (h : start.LeadsTo c) (h' : start.LeadsTo c')
    (hle : c.offset ≤ c'.offset) : c.LeadsTo c' := by
  rcases h.total h' with h | h
  · exact h
  · rw [h.eq_of_le hle]
    exact .refl _

namespace State

variable {chars : List Char} {s s' : State}

/-- A cursor is moved on to a place in the text, unless it is beyond it. -/
private theorem skipTo_eq {start c : Cursor} (hs : start.LeadsTo s.tail) (hc : start.LeadsTo c) :
    ending?.skipTo s c.offset = c ∨ ending?.skipTo s c.offset = s.tail := by
  have hstay : ∀ {offset : Nat} {rest : List Char}, c.offset ≤ offset →
      ending?.skipTo.go c.offset offset rest = ⟨offset, rest⟩ := by
    intro offset rest hle
    cases rest with
    | nil => rfl
    | cons x rest => rw [ending?.skipTo.go, if_pos hle]
  rcases hs.total hc with ⟨taken, hrest, hoffset⟩ | h
  · have hgo : ∀ taken offset, c.offset = offset + byteLength taken →
        ending?.skipTo.go c.offset offset (taken ++ c.rest) = c := by
      intro taken
      induction taken with
      | nil =>
        intro offset hoffset
        rw [byteLength_nil, Nat.add_zero] at hoffset
        rw [← hoffset]
        exact hstay le_rfl
      | cons x taken ih =>
        intro offset hoffset
        rw [byteLength_cons] at hoffset
        have hpos := x.utf8Size_pos
        rw [List.cons_append, ending?.skipTo.go, if_neg (by omega)]
        exact ih _ (by omega)
    left
    rw [ending?.skipTo, hrest]
    exact hgo taken _ hoffset
  · exact .inr (hstay h.offset_le)

/-- A statement that ends at a sealed place without a semicolon, or behind comments, ends at a sealed place. -/
theorem sealed_ending {e : Ending} (hs : s.In chars) (h : Sealed chars s.tail.rest s.tail.rest)
    (hending : s.ending? e = some s') : Sealed chars s'.tail.rest s'.tail.rest := by
  have hskip : ∀ {s : State} {k : Comment}, (Cursor.mk 0 chars).LeadsTo s.tail → Sealed chars s.tail.rest s.tail.rest →
      Gap.SealedBehind chars k → Sealed chars (ending?.skipTo s k.stop).rest (ending?.skipTo s k.stop).rest := by
    rintro s k hs h ⟨rest, hrest, hsealed⟩
    rcases skipTo_eq hs hrest with heq | heq
    · rw [show ending?.skipTo s k.stop = ⟨k.stop, rest⟩ from heq]
      exact hsealed
    · rw [show ending?.skipTo s k.stop = s.tail from heq]
      exact h
  have hgo : ∀ fuel (s : State) later, (Cursor.mk 0 chars).LeadsTo s.tail → Sealed chars s.tail.rest s.tail.rest →
      (∀ k ∈ later, Gap.SealedBehind chars k) → ∀ s', ending?.go e fuel s later = some s' →
        Sealed chars s'.tail.rest s'.tail.rest := by
    intro fuel s later
    fun_induction ending?.go e fuel s later with
    | case1 | case2 =>
      intro hs h hlater s' hs'
      cases hs'
    | case3 fuel s k later s₁ hends =>
      rintro hs h hlater s' ⟨rfl⟩
      exact hskip hs h (hlater k (List.mem_cons_self ..))
    | case4 fuel s k later s₁ hends ih =>
      intro hs h hlater s' hs'
      exact ih (hs.trans (leadsTo_skipTo s k.stop)) (hskip hs h (hlater k (List.mem_cons_self ..)))
        (fun k' hk' => hlater k' (List.mem_cons_of_mem _ hk')) s' hs'
  unfold ending? at hending
  split at hending
  · cases hending
    exact h
  · refine hgo _ _ _ hs.leads h (fun k hk => ?_) _ hending
    rw [hs.eq_behind] at hk
    exact Gap.sealedBehind_scan hs.leads k (List.mem_reverse.1 hk)

end State

end ScriptHost.Syntax
