import Mathlib.Data.List.TakeDrop
import Mathlib.Data.String.Basic
import ScriptHost.Syntax.Rule

/-!
# Places in a text

A token is taken off the front of what is ahead, and so is what stands between two tokens (`Lexeme.take?_append`,
`Gap.leadsTo_scan`).  So a cursor never leaves its text: it leads to another one if the text between them has the right
number of bytes (`Cursor.LeadsTo`).
-/

namespace ScriptHost.Syntax

open ScriptHost.Text

/-! ### Bytes -/

private theorem byteLength_eq_utf8Len (cs : List Char) : byteLength cs = String.utf8Len cs := by
  have hfold : ∀ n, cs.foldl (fun n c => n + c.utf8Size) n = n + String.utf8Len cs := by
    induction cs with
    | nil => simp
    | cons c cs ih =>
      intro n
      rw [List.foldl_cons, ih, String.utf8Len_cons]
      omega
  rw [byteLength, hfold, Nat.zero_add]

@[simp] theorem byteLength_nil : byteLength [] = 0 := rfl

@[simp] theorem byteLength_cons (c : Char) (cs : List Char) : byteLength (c :: cs) = c.utf8Size + byteLength cs := by
  rw [byteLength_eq_utf8Len, byteLength_eq_utf8Len, String.utf8Len_cons, Nat.add_comm]

@[simp] theorem byteLength_append (cs cs' : List Char) : byteLength (cs ++ cs') = byteLength cs + byteLength cs' := by
  simp [byteLength_eq_utf8Len]

theorem byteLength_pos {cs : List Char} (hcs : cs ≠ []) : 0 < byteLength cs := by
  cases cs with
  | nil => exact absurd rfl hcs
  | cons c cs =>
    rw [byteLength_cons]
    have hc := c.utf8Size_pos
    omega

theorem utf8ByteSize_ofList (cs : List Char) : (String.ofList cs).utf8ByteSize = byteLength cs := by
  rw [String.utf8ByteSize_ofList, byteLength_eq_utf8Len]

theorem slice_append (before text behind : List Char) :
    slice (String.ofList (before ++ text ++ behind)) (byteLength before) (byteLength before + byteLength text) =
      String.ofList text := by
  rw [byteLength_eq_utf8Len, byteLength_eq_utf8Len]
  exact String.extract_of_valid before text behind

/-! ### Cursors -/

namespace Cursor

/-- Some characters lie between two cursors. -/
def LeadsTo (c c' : Cursor) : Prop := ∃ taken, c.rest = taken ++ c'.rest ∧ c'.offset = c.offset + byteLength taken

variable {c c' c'' : Cursor}

theorem LeadsTo.refl (c : Cursor) : c.LeadsTo c := ⟨[], rfl, rfl⟩

theorem LeadsTo.trans (h : c.LeadsTo c') (h' : c'.LeadsTo c'') : c.LeadsTo c'' := by
  obtain ⟨taken, hrest, hoffset⟩ := h
  obtain ⟨taken', hrest', hoffset'⟩ := h'
  refine ⟨taken ++ taken', ?_, ?_⟩
  · rw [hrest, hrest', List.append_assoc]
  · rw [hoffset', hoffset, byteLength_append, Nat.add_assoc]

theorem LeadsTo.offset_le (h : c.LeadsTo c') : c.offset ≤ c'.offset := by
  obtain ⟨taken, -, hoffset⟩ := h
  omega

theorem leadsTo_past {taken left : List Char} (h : taken ++ left = c.rest) : c.LeadsTo (c.past taken left) :=
  ⟨taken, h.symm, rfl⟩

/-- The cursor `k` bytes further on, with the same characters ahead. -/
def shift (k : Nat) (c : Cursor) : Cursor := ⟨c.offset + k, c.rest⟩

theorem shift_past (k : Nat) (c : Cursor) (taken left : List Char) :
    (c.shift k).past taken left = (c.past taken left).shift k := by
  simp only [past, shift, Cursor.mk.injEq, and_true]
  omega

end Cursor

/-! ### Tokens -/

theorem span_append (p : Char → Bool) (cs : List Char) : (cs.span p).1 ++ (cs.span p).2 = cs := by
  rw [List.span_eq_takeWhile_dropWhile]
  exact List.takeWhile_append_dropWhile

private theorem takeWordParts_append (cs : List Char) : (takeWordParts cs).1 ++ (takeWordParts cs).2 = cs := by
  induction cs using takeWordParts.induct with
  | case1 rest _ _ _ ih => simp [takeWordParts, ih]
  | case2 c rest hne hc _ _ _ ih =>
    rw [takeWordParts, if_pos hc]
    · simp [ih]
    · exact hne
  | case3 c rest hne hc =>
    rw [takeWordParts, if_neg hc]
    · rfl
    · exact hne
  | case4 => rfl

theorem takeWord?_append {cs taken left : List Char} (h : takeWord? cs = some (taken, left)) : taken ++ left = cs := by
  have hparts := takeWordParts_append cs
  unfold takeWord? at h
  split at h
  · rwa [Option.some.inj h] at hparts
  · split at h
    · rwa [Option.some.inj h] at hparts
    · cases h
  · cases h

private theorem takeDigits_append (p : Char → Bool) (cs : List Char) : (takeDigits p cs).1 ++
    (takeDigits p cs).2 = cs :=
  span_append _ cs

private theorem takeExponent_append (cs : List Char) : (takeExponent cs).1 ++ (takeExponent cs).2 = cs := by
  unfold takeExponent
  split
  · split
    · simp only [List.cons_append, takeDigits_append]
    · split
      · simp only [List.cons_append, takeDigits_append]
      · rfl
  · split <;> rfl
  · rfl

private theorem takeBigMark_append (cs : List Char) : (takeBigMark cs).1 ++ (takeBigMark cs).2 = cs := by
  unfold takeBigMark
  split <;> rfl

private theorem decimal_append {cs taken left : List Char} (h : takeNumber?.decimal cs = some (taken, left)) :
    taken ++ left = cs := by
  have hwhole := takeDigits_append Char.isDigit cs
  unfold takeNumber?.decimal at h
  dsimp only at h
  split at h
  · cases h
    rename_i heq
    rw [heq] at hwhole
    rw [List.append_assoc, List.singleton_append, hwhole]
  · cases h
    rename_i rest heq
    rw [heq] at hwhole
    simp only [List.cons_append, List.append_assoc, takeExponent_append, takeDigits_append, hwhole]
  · cases h
    rw [List.append_assoc, takeExponent_append, hwhole]

theorem takeNumber?_append {cs taken left : List Char} (h : takeNumber? cs = some (taken, left)) :
    taken ++ left = cs := by
  unfold takeNumber? at h
  split at h
  · split at h
    · dsimp only at h
      obtain ⟨rfl, rfl⟩ := Prod.mk.inj (Option.some.inj h)
      simp only [List.cons_append, List.append_assoc, takeBigMark_append, takeDigits_append]
    · exact decimal_append h
  · split at h
    · dsimp only at h
      obtain ⟨rfl, rfl⟩ := Prod.mk.inj (Option.some.inj h)
      simp only [List.cons_append, List.append_assoc, takeExponent_append, takeDigits_append]
    · cases h
  · split at h
    · exact decimal_append h
    · cases h
  · cases h

theorem ifSome_eq_some {x : List Char × List Char} {taken left : List Char} (h : ifSome x = some (taken, left)) :
    x = (taken, left) ∧ taken ≠ [] := by
  unfold ifSome at h
  split at h
  · cases h
  · obtain rfl := Option.some.inj h
    rename_i hne
    exact ⟨rfl, by simpa using hne⟩

private theorem ifSome_append {x : List Char × List Char} {cs taken left : List Char} (hx : x.1 ++ x.2 = cs)
    (h : ifSome x = some (taken, left)) : taken ++ left = cs := by
  obtain ⟨rfl, -⟩ := ifSome_eq_some h
  exact hx

private theorem takeEscape?_append {cs taken left : List Char} (h : takeEscape? cs = some (taken, left)) :
    taken ++ left = cs := by
  unfold takeEscape? at h
  split at h
  · dsimp only at h
    split at h
    · obtain ⟨rfl, rfl⟩ := Prod.mk.inj (Option.some.inj h)
      rename_i rest _ left heq
      have hdigits := span_append isHexDigit rest
      rw [heq] at hdigits
      simp only [List.cons_append, List.append_assoc, List.nil_append, hdigits]
    · cases h
  · split at h <;> cases h
    rfl
  · split at h <;> cases h
    rfl
  · cases h
    rfl
  · split at h <;> cases h
    rfl
  · cases h

private theorem takeTemplateText_append (cs : List Char) : (takeTemplateText cs).1 ++ (takeTemplateText cs).2 = cs := by
  induction cs using takeTemplateText.induct with
  | case1 => rfl
  | case2 rest => rfl
  | case3 rest => rfl
  | case4 rest => rfl
  | case5 c rest h₁ h₂ h₃ _ _ _ ih =>
    rw [takeTemplateText]
    · simp [ih]
    all_goals assumption

private theorem takeRegexBody_append (inClass : Bool) (cs : List Char) :
    (takeRegexBody inClass cs).1 ++ (takeRegexBody inClass cs).2 = cs := by
  induction inClass, cs using takeRegexBody.induct with
  | case1 inClass c rest hc => simp [takeRegexBody, hc]
  | case2 inClass c rest hc _ _ _ ih => simp [takeRegexBody, hc, ih]
  | case3 inClass c rest hne hc =>
    rw [takeRegexBody, if_pos hc]
    · rfl
    · exact hne
  | case4 inClass c rest hne hc _ _ _ ih =>
    rw [takeRegexBody, if_neg hc]
    · simp [ih]
    · exact hne
  | case5 => simp [takeRegexBody]

private theorem takeMarkupName?_append {cs taken left : List Char} (h : takeMarkupName? cs = some (taken, left)) :
    taken ++ left = cs := by
  obtain ⟨⟨word, rest⟩, htake, h⟩ := Option.bind_eq_some_iff.1 h
  have hword := takeWord?_append htake
  dsimp only at h
  split at h
  · rename_i more
    obtain ⟨rfl, rfl⟩ := Prod.mk.inj (Option.some.inj h)
    have hmore := span_append (fun c => c.isAlphanum || c == '_' || c == '$' || c == '-') ('-' :: more)
    rw [List.append_assoc, hmore, hword]
  · cases h
    exact hword

private theorem takeCharacterReference?_append {cs taken left : List Char}
    (h : takeCharacterReference? cs = some (taken, left)) : taken ++ left = cs := by
  unfold takeCharacterReference? at h
  split at h
  · rename_i rest
    have hbody := span_append (fun c => c.isAlphanum || c == '#') rest
    dsimp only at h
    split at h
    · obtain ⟨rfl, rfl⟩ := Prod.mk.inj (Option.some.inj h)
      rename_i heq
      rw [heq] at hbody
      simp only [List.cons_append, List.append_assoc, List.nil_append, hbody]
    · cases h
  · cases h

theorem Lexeme.take?_append {word : String} {cs taken left : List Char} {l : Lexeme}
    (h : l.take? word cs = some (taken, left)) : taken ++ left = cs := by
  cases l with
  | keyword w =>
    unfold Lexeme.take? at h
    dsimp only at h
    rw [List.splitAt_eq] at h
    split at h <;> cases h
    exact List.take_append_drop ..
  | symbol mark barring =>
    unfold Lexeme.take? at h
    dsimp only at h
    split at h
    · rename_i rest hrest
      split at h <;> cases h
      exact List.isPrefixOf?_eq_some_iff_append_eq.1 hrest
    · cases h
  | word except =>
    unfold Lexeme.take? at h
    dsimp only at h
    split at h
    · cases h
    · exact takeWord?_append h
  | privateName =>
    unfold Lexeme.take? at h
    dsimp only at h
    split at h
    · obtain ⟨⟨name, rest⟩, hname, heq⟩ := Option.map_eq_some_iff.1 h
      cases heq
      rw [List.cons_append, takeWord?_append hname]
    · cases h
  | number => exact takeNumber?_append h
  | stringText quote => exact ifSome_append (span_append _ cs) h
  | escape => exact takeEscape?_append h
  | templateText => exact ifSome_append (takeTemplateText_append cs) h
  | regexBody => exact ifSome_append (takeRegexBody_append false cs) h
  | regexFlags => exact ifSome_append (span_append _ cs) h
  | markupText =>
    unfold Lexeme.take? takeMarkupText? at h
    dsimp only at h
    split at h <;> cases h
    exact span_append _ cs
  | markupName => exact takeMarkupName?_append h
  | attributeText quote => exact ifSome_append (span_append _ cs) h
  | characterReference => exact takeCharacterReference?_append h
  | hashBang =>
    unfold Lexeme.take? at h
    dsimp only at h
    split at h
    · rename_i rest
      have hspan := span_append (· != '\n') ('#' :: '!' :: rest)
      rwa [Option.some.inj h] at hspan
    · cases h

/-- A keyword takes the word that comes next. -/
theorem Lexeme.of_take?_keyword {w word : String} {cs taken left : List Char}
    (hword : word = "" ∨ ∃ left, takeWord? cs = some (word.toList, left))
    (h : (keyword w).take? word cs = some (taken, left)) : word = w ∧ taken = w.toList := by
  unfold take? at h
  dsimp only at h
  split at h
  · rename_i hw
    obtain rfl : w = word := beq_iff_eq.1 hw
    refine ⟨rfl, ?_⟩
    rw [List.splitAt_eq] at h
    rcases hword with rfl | ⟨left', hword⟩
    · exact (congrArg Prod.fst (Option.some.inj h)).symm
    · rw [← takeWord?_append hword, ← String.length_toList, List.take_left] at h
      exact (congrArg Prod.fst (Option.some.inj h)).symm
  · cases h

theorem Lexeme.of_take?_symbol {mark barring : List Char} {word : String} {cs taken left : List Char}
    (h : (symbol mark barring).take? word cs = some (taken, left)) : taken = mark := by
  unfold take? at h
  dsimp only at h
  split at h
  · split at h
    · cases h
    · exact (congrArg Prod.fst (Option.some.inj h)).symm
  · cases h

/-- The classes of tokens that take at least one character. -/
def Lexeme.isFilled : Lexeme → Bool
  | keyword w => w != ""
  | symbol mark _ => !mark.isEmpty
  | _ => true

theorem takeWord?_ne_nil {cs taken left : List Char} (h : takeWord? cs = some (taken, left)) : taken ≠ [] := by
  unfold takeWord? at h
  split at h
  · rw [takeWordParts] at h
    cases h
    exact List.cons_ne_nil _ _
  · split at h
    · rename_i c rest hne hc
      have hpart : isWordPart c = true := by
        rw [isWordStart, Bool.and_eq_true] at hc
        exact hc.1
      rw [takeWordParts, if_pos hpart] at h
      · cases h
        exact List.cons_ne_nil _ _
      · rintro rest' rfl rfl
        exact hne rest' rfl rfl
    · cases h
  · cases h

private theorem decimal_ne_nil {c : Char} (hc : c.isDigit = true) {cs taken left : List Char}
    (h : takeNumber?.decimal (c :: cs) = some (taken, left)) : taken ≠ [] := by
  have hwhole : (takeDigits Char.isDigit (c :: cs)).1 ≠ [] := by
    rw [takeDigits, List.span_eq_takeWhile_dropWhile, List.takeWhile_cons_of_pos (by simp [hc])]
    exact List.cons_ne_nil _ _
  unfold takeNumber?.decimal at h
  dsimp only at h
  split at h <;> obtain ⟨rfl, -⟩ := Prod.mk.inj (Option.some.inj h) <;> simp [hwhole]

theorem takeNumber?_ne_nil {cs taken left : List Char} (h : takeNumber? cs = some (taken, left)) : taken ≠ [] := by
  unfold takeNumber? at h
  split at h
  · split at h
    · dsimp only at h
      obtain ⟨rfl, -⟩ := Prod.mk.inj (Option.some.inj h)
      exact List.cons_ne_nil _ _
    · exact decimal_ne_nil (by decide) h
  · split at h
    · dsimp only at h
      obtain ⟨rfl, -⟩ := Prod.mk.inj (Option.some.inj h)
      exact List.cons_ne_nil _ _
    · cases h
  · split at h
    · exact decimal_ne_nil ‹_› h
    · cases h
  · cases h

private theorem takeMarkupName?_ne_nil {cs taken left : List Char} (h : takeMarkupName? cs = some (taken, left)) :
    taken ≠ [] := by
  obtain ⟨⟨word, rest⟩, htake, h⟩ := Option.bind_eq_some_iff.1 h
  have hword := takeWord?_ne_nil htake
  dsimp only at h
  split at h <;> obtain ⟨rfl, -⟩ := Prod.mk.inj (Option.some.inj h)
  · simp [hword]
  · exact hword

private theorem takeEscape?_ne_nil {cs taken left : List Char} (h : takeEscape? cs = some (taken, left)) : taken ≠
    [] := by
  unfold takeEscape? at h
  split at h
  · dsimp only at h
    split at h <;> cases h
    exact List.cons_ne_nil _ _
  · split at h <;> cases h
    exact List.cons_ne_nil _ _
  · split at h <;> cases h
    exact List.cons_ne_nil _ _
  · cases h
    exact List.cons_ne_nil _ _
  · split at h <;> cases h
    exact List.cons_ne_nil _ _
  · cases h

/-- An empty text is only layout. -/
private theorem takeMarkupText?_ne_nil {cs taken left : List Char} (h : takeMarkupText? cs = some (taken, left)) :
    taken ≠ [] := by
  unfold takeMarkupText? at h
  dsimp only at h
  split at h
  · rename_i htext
    obtain ⟨rfl, -⟩ := Prod.mk.inj (Option.some.inj h)
    intro hnil
    rw [hnil] at htext
    exact absurd htext (by decide)
  · cases h

private theorem takeCharacterReference?_ne_nil {cs taken left : List Char}
    (h : takeCharacterReference? cs = some (taken, left)) : taken ≠ [] := by
  unfold takeCharacterReference? at h
  split at h
  · dsimp only at h
    split at h <;> cases h
    exact List.cons_ne_nil _ _
  · cases h

theorem Lexeme.take?_ne_nil {word : String} {cs taken left : List Char} {l : Lexeme} (hl : l.isFilled = true)
    (hcs : word ≠ "" → cs ≠ []) (h : l.take? word cs = some (taken, left)) : taken ≠ [] := by
  cases l with
  | keyword w =>
    unfold Lexeme.take? at h
    dsimp only at h
    have hw : w ≠ "" := by simpa [isFilled] using hl
    have hlength : w.length ≠ 0 := by rwa [Ne, String.length_eq_zero_iff]
    rw [List.splitAt_eq] at h
    split at h
    · rename_i hword
      obtain rfl := beq_iff_eq.1 hword
      obtain ⟨rfl, -⟩ := Prod.mk.inj (Option.some.inj h)
      simp [hlength, hcs hw]
    · cases h
  | symbol mark barring =>
    unfold Lexeme.take? at h
    dsimp only at h
    have hmark : mark ≠ [] := by simpa [isFilled] using hl
    split at h
    · split at h <;> cases h
      exact hmark
    · cases h
  | word except =>
    unfold Lexeme.take? at h
    dsimp only at h
    split at h
    · cases h
    · exact takeWord?_ne_nil h
  | privateName =>
    unfold Lexeme.take? at h
    dsimp only at h
    split at h
    · obtain ⟨_, -, heq⟩ := Option.map_eq_some_iff.1 h
      cases heq
      exact List.cons_ne_nil _ _
    · cases h
  | number => exact takeNumber?_ne_nil h
  | stringText quote => exact (ifSome_eq_some h).2
  | escape => exact takeEscape?_ne_nil h
  | templateText => exact (ifSome_eq_some h).2
  | regexBody => exact (ifSome_eq_some h).2
  | regexFlags => exact (ifSome_eq_some h).2
  | markupText => exact takeMarkupText?_ne_nil h
  | markupName => exact takeMarkupName?_ne_nil h
  | attributeText quote => exact (ifSome_eq_some h).2
  | characterReference => exact takeCharacterReference?_ne_nil h
  | hashBang =>
    unfold Lexeme.take? at h
    dsimp only at h
    split at h
    · rw [List.span_eq_takeWhile_dropWhile, List.takeWhile_cons_of_pos (by decide)] at h
      obtain ⟨rfl, -⟩ := Prod.mk.inj (Option.some.inj h)
      exact List.cons_ne_nil _ _
    · cases h

/-! ### Gaps -/

/-- The comment `k` bytes further on. -/
def Comment.shift (k : Nat) (c : Comment) : Comment := ⟨c.start + k, c.text⟩

theorem Comment.stop_shift (k : Nat) (c : Comment) : (c.shift k).stop = c.stop + k := by
  simp only [stop, shift]
  omega

namespace Gap

section

variable (comments : List Comment) (broken : Bool) (offset start : Nat) (text rest : List Char)

private theorem scanFrom_slashes : scanFrom comments broken .spacing offset ('/' :: '/' :: rest) =
    scanFrom comments broken (.line offset ['/', '/']) (offset + 2) rest := by
  rw [scanFrom.eq_def]
  rfl

private theorem scanFrom_opening : scanFrom comments broken .spacing offset ('/' :: '*' :: rest) =
    scanFrom comments broken (.block ⟨offset, '/' :: '*' :: rest⟩ ['*', '/']) (offset + 2) rest := by
  rw [scanFrom.eq_def]
  rfl

variable {c : Char}

theorem scanFrom_spacing (h₁ : ∀ more, c = '/' → rest = '/' :: more → False)
    (h₂ : ∀ more, c = '/' → rest = '*' :: more → False) : scanFrom comments broken .spacing offset (c :: rest) =
      if isSpacing c then scanFrom comments (broken || isLineEnd c) .spacing (offset + c.utf8Size) rest
      else ⟨⟨offset, c :: rest⟩, comments, broken⟩ := by
  rw [scanFrom.eq_def]
  split <;> simp_all

private theorem scanFrom_closing (opened : Cursor) : scanFrom comments broken (.block opened text) offset
    ('*' :: '/' :: rest) =
    scanFrom (⟨opened.offset, String.ofList ('/' :: '*' :: text).reverse⟩ :: comments) broken .spacing (offset + 2)
      rest := by
  rw [scanFrom.eq_def]
  rfl

private theorem scanFrom_block (opened : Cursor) (h : ∀ more, c = '*' → rest = '/' :: more → False) :
    scanFrom comments broken (.block opened text) offset (c :: rest) =
      scanFrom comments (broken || isLineEnd c) (.block opened (c :: text)) (offset + c.utf8Size) rest := by
  rw [scanFrom.eq_def]
  split <;> simp_all

private theorem scanFrom_line : scanFrom comments broken (.line start text) offset (c :: rest) =
    if isLineEnd c then
      scanFrom (⟨start, String.ofList text.reverse⟩ :: comments) true .spacing (offset + c.utf8Size) rest
    else scanFrom comments broken (.line start (c :: text)) (offset + c.utf8Size) rest := by
  rw [scanFrom.eq_def]
  rfl

end

/-- The same stands in two gaps, the second of which is `k` bytes further on. -/
structure Alike (k : Nat) (g g' : Gap) : Prop where
  next : g'.next = g.next.shift k
  comments : g'.comments = g.comments.map (·.shift k)

/-- The scan that stands `k` bytes further on. -/
def Mode.shift (k : Nat) : Mode → Mode
  | .spacing => .spacing
  | .line start text => .line (start + k) text
  | .block opened text => .block (opened.shift k) text

/-- What stands in a gap does not depend on its place, nor on whether a line has ended before; and with that, whether a
line ends in it does not depend on its place. -/
private theorem scanFrom_shift (k : Nat) (comments : List Comment) (broken : Bool) (mode : Mode) (offset : Nat)
    (cs : List Char) (broken' : Bool) :
    Alike k (scanFrom comments broken mode offset cs)
        (scanFrom (comments.map (·.shift k)) broken' (mode.shift k) (offset + k) cs) ∧
      (broken' = broken →
        (scanFrom (comments.map (·.shift k)) broken' (mode.shift k) (offset + k) cs).broken =
          (scanFrom comments broken mode offset cs).broken) := by
  have hplace : ∀ offset n : Nat, offset + k + n = offset + n + k := fun offset n => Nat.add_right_comm offset k n
  fun_induction scanFrom comments broken mode offset cs generalizing broken' with
  | case1 => exact ⟨⟨rfl, rfl⟩, id⟩
  | case2 comments broken offset rest ih =>
    rw [Mode.shift, scanFrom_slashes, hplace]
    exact ih broken'
  | case3 comments broken offset rest ih =>
    rw [Mode.shift, scanFrom_opening, hplace]
    exact ih broken'
  | case4 comments broken offset c rest h₁ h₂ hc ih =>
    rw [Mode.shift, scanFrom_spacing _ _ _ _ h₁ h₂, if_pos hc, hplace]
    obtain ⟨halike, hbroken⟩ := ih (broken' || isLineEnd c)
    exact ⟨halike, fun h => hbroken (by rw [h])⟩
  | case5 comments broken offset c rest h₁ h₂ hc =>
    rw [Mode.shift, scanFrom_spacing _ _ _ _ h₁ h₂, if_neg hc]
    exact ⟨⟨rfl, rfl⟩, id⟩
  | case6 => exact ⟨⟨rfl, rfl⟩, id⟩
  | case7 comments broken start text offset c rest hc ih =>
    rw [Mode.shift, scanFrom_line, if_pos hc, hplace]
    exact ⟨(ih true).1, fun _ => (ih true).2 rfl⟩
  | case8 comments broken start text offset c rest hc ih =>
    rw [Mode.shift, scanFrom_line, if_neg hc, hplace]
    exact ih broken'
  | case9 => exact ⟨⟨rfl, rfl⟩, id⟩
  | case10 comments broken opened text offset rest ih =>
    rw [Mode.shift, scanFrom_closing, hplace]
    exact ih broken'
  | case11 comments broken opened text offset c rest h ih =>
    rw [Mode.shift, scanFrom_block _ _ _ _ _ _ h, hplace]
    obtain ⟨halike, hbroken⟩ := ih (broken' || isLineEnd c)
    exact ⟨halike, fun h => hbroken (by rw [h])⟩

theorem scan_shift (k : Nat) (c : Cursor) :
    Alike k (scan c) (scan (c.shift k)) ∧ (scan (c.shift k)).broken = (scan c).broken := by
  obtain ⟨halike, hbroken⟩ := scanFrom_shift k [] false .spacing c.offset c.rest false
  exact ⟨halike, hbroken rfl⟩

/-- A line end before a gap makes no difference to what stands in it. -/
theorem scan_line (offset : Nat) (cs : List Char) :
    Alike (offset + 1) (scan ⟨0, cs⟩) (scan ⟨offset, '\n' :: cs⟩) := by
  unfold scan
  dsimp only
  rw [scanFrom_spacing _ _ _ _ (fun _ h => absurd h (by decide)) (fun _ h => absurd h (by decide)),
    if_pos (by decide)]
  have hmove := (scanFrom_shift (offset + 1) [] false .spacing 0 cs true).1
  rwa [Nat.zero_add] at hmove

/-- A scan leads on from where it stands, or from where a block comment began. -/
private theorem leadsTo_scanFrom {p : Cursor} (comments : List Comment) (broken : Bool) (mode : Mode) (offset : Nat)
    (cs : List Char) (hp : p.LeadsTo ⟨offset, cs⟩)
    (hopened : ∀ opened text, mode = .block opened text → p.LeadsTo opened) :
    p.LeadsTo (scanFrom comments broken mode offset cs).next := by
  have hone : ∀ {offset c rest}, p.LeadsTo ⟨offset, c :: rest⟩ → p.LeadsTo ⟨offset + c.utf8Size, rest⟩ := by
    intro offset c rest hp
    exact hp.trans ⟨[c], rfl, by simp⟩
  have htwo : ∀ {offset c c' rest}, c.utf8Size = 1 → c'.utf8Size = 1 → p.LeadsTo ⟨offset, c :: c' :: rest⟩ →
      p.LeadsTo ⟨offset + 2, rest⟩ := by
    intro offset c c' rest hc hc' hp
    exact hp.trans ⟨[c, c'], rfl, by simp [hc, hc']⟩
  fun_induction scanFrom comments broken mode offset cs with
  | case1 => exact hp
  | case2 comments broken offset rest ih => exact ih (htwo rfl rfl hp) nofun
  | case3 comments broken offset rest ih =>
    refine ih (htwo rfl rfl hp) fun opened text hmode => ?_
    cases hmode
    exact hp
  | case4 comments broken offset c rest h₁ h₂ hc ih => exact ih (hone hp) nofun
  | case5 comments broken offset c rest h₁ h₂ hc => exact hp
  | case6 => exact hp
  | case7 comments broken start text offset c rest hc ih => exact ih (hone hp) nofun
  | case8 comments broken start text offset c rest hc ih => exact ih (hone hp) nofun
  | case9 comments broken opened text offset => exact hopened opened text rfl
  | case10 comments broken opened text offset rest ih => exact ih (htwo rfl rfl hp) nofun
  | case11 comments broken opened text offset c rest h ih =>
    refine ih (hone hp) fun opened' text' hmode => ?_
    cases hmode
    exact hopened opened text rfl

theorem leadsTo_scan (c : Cursor) : c.LeadsTo (scan c).next :=
  leadsTo_scanFrom _ _ _ _ _ (.refl c) nofun

private theorem head_of_scanFrom {c : Char} {rest : List Char} (comments : List Comment) (broken : Bool) (mode : Mode)
    (offset : Nat) (cs : List Char) (hopened : ∀ opened text, mode = .block opened text → opened.rest.head? = some '/')
    (h : (scanFrom comments broken mode offset cs).next.rest = c :: rest) : isSpacing c = false := by
  fun_induction scanFrom comments broken mode offset cs with
  | case1 => cases h
  | case2 comments broken offset rest ih => exact ih nofun h
  | case3 comments broken offset rest ih =>
    refine ih (fun opened text hmode => ?_) h
    cases hmode
    rfl
  | case4 comments broken offset c rest h₁ h₂ hc ih => exact ih nofun h
  | case5 comments broken offset c' rest h₁ h₂ hc =>
    cases h
    simpa using hc
  | case6 => cases h
  | case7 comments broken start text offset c rest hc ih => exact ih nofun h
  | case8 comments broken start text offset c rest hc ih => exact ih nofun h
  | case9 comments broken opened text offset =>
    have hhead : opened.rest.head? = some '/' := hopened opened text rfl
    have hrest : opened.rest = c :: rest := h
    rw [hrest] at hhead
    rw [Option.some.inj hhead]
    decide
  | case10 comments broken opened text offset rest ih => exact ih nofun h
  | case11 comments broken opened text offset c rest h' ih =>
    refine ih (fun opened' text' hmode => ?_) h
    cases hmode
    exact hopened opened text rfl

theorem head_of_scan {p : Cursor} {c : Char} {rest : List Char} (h : (scan p).next.rest = c :: rest) :
    isSpacing c = false :=
  head_of_scanFrom [] false .spacing p.offset p.rest nofun h

end Gap

end ScriptHost.Syntax
