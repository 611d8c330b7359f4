import Mathlib.Data.List.TakeWhile
import ScriptHost.Imports.Pattern
import ScriptHost.Proofs.Syntax.Cursor

/-!
# Imports found without a tree

Every find is a piece of the text: perhaps white space, the word that an import of its form begins with, and the name
of the module between the first two quotes behind that word (`Begins`).  Each way to recognise imports finds such pieces
only (`begins_of_mem_finders`), and so does a search through the whole text (`exists_of_mem_findAll`).  The finds are
listed in the order of the text, but one with white space in front is not where the import is
(`scanPatterns_points_iff`).
-/

namespace ScriptHost.Imports

open ScriptHost.Syntax ScriptHost.Text

/-- The word with which an import begins. -/
def Form.keyword : Form → String
  | .static => "import"
  | .reExport => "export"
  | .require => "require"
  | .dynamic => "import"

/-- A name stands between the first two quotes of a text, and a certain rest of the text somewhere behind them. -/
def FirstQuoted (name : String) (rest cs : List Char) : Prop :=
  ∃ between q q' more, cs = between ++ q :: (name.toList ++ q' :: (more ++ rest)) ∧
    (∀ c ∈ between, isQuote c = false) ∧ isQuote q = true ∧ isQuote q' = true ∧
      ∀ c ∈ name.toList, isQuote c = false

/-- A text begins with an import: with white space only if that is no call, then with the word of its form, and the name
of the module stands between the first two quotes behind that word. -/
structure Begins (cs : List Char) (found : Find) (blanks behind : List Char) : Prop where
  whole : cs = blanks ++ (found.1.keyword.toList ++ behind)
  blank : ∀ c ∈ blanks, isBlank c = true
  call : found.1 = .require ∨ found.1 = .dynamic → blanks = []
  quoted : FirstQuoted found.2.1 found.2.2 behind

/-! ### Parts of imports -/

section

variable {before : Option Char} {cs rest text : List Char} {name word : String}

private theorem eq_append_of_afterWord? (h : afterWord? word cs = some rest) : cs = word.toList ++ rest :=
  (List.isPrefixOf?_eq_some_iff_append_eq.1 h).symm

private theorem exists_eq_append_skipBlanks (cs : List Char) :
    ∃ blanks, cs = blanks ++ skipBlanks cs ∧ ∀ c ∈ blanks, isBlank c = true :=
  ⟨cs.takeWhile isBlank, List.takeWhile_append_dropWhile.symm, fun _ => List.mem_takeWhile_imp⟩

private theorem isQuote_of_isBlank {c : Char} (h : isBlank c = true) : isQuote c = false := by
  have hsingle : c ≠ '\'' := by
    rintro rfl
    exact absurd h (by decide)
  have hdouble : c ≠ '"' := by
    rintro rfl
    exact absurd h (by decide)
  simp [isQuote, hsingle, hdouble]

private theorem firstQuoted_of_quotedName? (h : quotedName? cs = some (name, rest)) : FirstQuoted name rest cs := by
  unfold quotedName? at h
  split at h
  · cases h
  · rename_i q cs
    split at h
    · rename_i q' rest' hdrop
      split at h
      · rename_i hq
        obtain ⟨rfl, rfl⟩ := Prod.mk.inj (Option.some.inj h)
        have hwhole : cs = cs.takeWhile (!isQuote ·) ++ q' :: rest' := by
          rw [← hdrop, List.takeWhile_append_dropWhile]
        have hq' : isQuote q' = true := by
          have hne : cs.dropWhile (!isQuote ·) ≠ [] := by simp [hdrop]
          have hhead := List.head_dropWhile_not (!isQuote ·) hne
          simpa [hdrop] using hhead
        refine ⟨[], q, q', [], ?_, by simp, hq, hq', ?_⟩
        · rw [String.toList_ofList, List.nil_append, List.nil_append]
          exact congrArg _ hwhole
        · intro c hc
          rw [String.toList_ofList] at hc
          have hnot := List.mem_takeWhile_imp hc
          simpa using hnot
      · cases h
    · cases h

/-- What stands before a text with a name between quotes does not matter if there are no quotes in it. -/
private theorem FirstQuoted.append (h : FirstQuoted name rest cs) (htext : ∀ c ∈ text, isQuote c = false) :
    FirstQuoted name rest (text ++ cs) := by
  obtain ⟨between, q, q', more, rfl, hbetween, hq, hq', hname⟩ := h
  refine ⟨text ++ between, q, q', more, by simp, ?_, hq, hq', hname⟩
  intro c hc
  rcases List.mem_append.1 hc with hc | hc
  · exact htext c hc
  · exact hbetween c hc

private theorem FirstQuoted.of_rest (h : FirstQuoted name (text ++ rest) cs) : FirstQuoted name rest cs := by
  obtain ⟨between, q, q', more, rfl, hbetween, hq, hq', hname⟩ := h
  exact ⟨between, q, q', more ++ text, by simp, hbetween, hq, hq', hname⟩

private theorem FirstQuoted.of_skipBlanks (h : FirstQuoted name rest (skipBlanks cs)) : FirstQuoted name rest cs := by
  obtain ⟨blanks, hcs, hblanks⟩ := exists_eq_append_skipBlanks cs
  rw [hcs]
  apply h.append
  intro c hc
  exact isQuote_of_isBlank (hblanks c hc)

private theorem FirstQuoted.of_afterWord (hword : afterWord? word cs = some text) (h : FirstQuoted name rest text)
    (hplain : ∀ c ∈ word.toList, isQuote c = false) : FirstQuoted name rest cs := by
  rw [eq_append_of_afterWord? hword]
  exact h.append hplain

/-- What is passed over on the way to the next name is no quote. -/
private theorem firstQuoted_of_fromName? (h : fromName? before cs = some (name, rest)) : FirstQuoted name rest cs := by
  have hhere : ∀ {before : Option Char} {cs : List Char},
      (if wordStarts before then (afterWord? "from" cs).bind (quotedName? ∘ skipBlanks) else none) = some (name, rest) →
        FirstQuoted name rest cs := by
    intro before cs hfound
    split at hfound
    · obtain ⟨text, hword, hname⟩ := Option.bind_eq_some_iff.1 hfound
      exact (firstQuoted_of_quotedName? hname).of_skipBlanks.of_afterWord hword (by simp [isQuote])
    · cases hfound
  induction cs generalizing before with
  | nil =>
    unfold fromName? at h
    dsimp only at h
    split at h
    · rename_i heq
      exact hhere (heq.trans h)
    · cases h
    · rename_i heq
      cases heq
  | cons c cs ih =>
    unfold fromName? at h
    dsimp only at h
    split at h
    · rename_i heq
      exact hhere (heq.trans h)
    · rename_i heq
      cases heq
    · rename_i heq
      cases heq
      split at h
      · cases h
      · rename_i hnot
        have hplain : ∀ d ∈ [c], isQuote d = false := by simp_all
        exact (ih h).append hplain

/-! ### Ways to recognise imports -/

variable {found : Find}

/-- A statement that imports from a module begins with its word, perhaps behind white space. -/
private theorem begins_of_statement (form : Form) {behind : List Char}
    (hword : afterWord? form.keyword (skipBlanks cs) = some behind)
    (hform : form = .static ∨ form = .reExport) (hname : FirstQuoted name rest behind) :
    ∃ blanks behind, Begins cs (form, name, rest) blanks behind := by
  obtain ⟨blanks, hcs, hblanks⟩ := exists_eq_append_skipBlanks cs
  refine ⟨blanks, behind, ?_, hblanks, ?_, hname⟩
  · rw [← eq_append_of_afterWord? hword]
    exact hcs
  · intro hcall
    rcases hform with rfl | rfl <;> simp at hcall

private theorem begins_of_findFrom (h : findFrom before cs = some found) :
    ∃ blanks behind, Begins cs found blanks behind := by
  obtain ⟨⟨⟩, -, h⟩ := Option.bind_eq_some_iff.1 h
  dsimp only at h
  have hnamed : ∀ {form : Form} {behind : List Char}, (guard (wordEnds behind = true) >>= fun _ =>
      fromName? (some 't') behind >>= fun x => some ((form, x.1, x.2) : Find)) = some found →
        ∃ name rest, found = (form, name, rest) ∧ FirstQuoted name rest behind := by
    intro form behind hfound
    obtain ⟨⟨⟩, -, hfound⟩ := Option.bind_eq_some_iff.1 hfound
    obtain ⟨⟨name, rest⟩, hname, hfound⟩ := Option.bind_eq_some_iff.1 hfound
    exact ⟨name, rest, (Option.some.inj hfound).symm, firstQuoted_of_fromName? hname⟩
  split at h
  · rename_i behind _ hword
    obtain ⟨name, rest, rfl, hname⟩ := hnamed h
    exact begins_of_statement .static hword (.inl rfl) hname
  · rename_i behind _ hword
    obtain ⟨name, rest, rfl, hname⟩ := hnamed h
    exact begins_of_statement .reExport hword (.inr rfl) hname
  · cases h

private theorem begins_of_findBare (h : findBare before cs = some found) :
    ∃ blanks behind, Begins cs found blanks behind := by
  obtain ⟨⟨⟩, -, h⟩ := Option.bind_eq_some_iff.1 h
  obtain ⟨behind, hword, h⟩ := Option.bind_eq_some_iff.1 h
  obtain ⟨⟨name, rest⟩, hname, h⟩ := Option.bind_eq_some_iff.1 h
  obtain rfl := Option.some.inj h
  exact begins_of_statement .static hword (.inl rfl) (firstQuoted_of_quotedName? hname).of_skipBlanks

private theorem begins_of_findCall (form : Form) (h : findCall form.keyword form before cs = some found) :
    ∃ blanks behind, Begins cs found blanks behind := by
  obtain ⟨⟨⟩, -, h⟩ := Option.bind_eq_some_iff.1 h
  obtain ⟨behind, hword, h⟩ := Option.bind_eq_some_iff.1 h
  obtain ⟨given, hopen, h⟩ := Option.bind_eq_some_iff.1 h
  obtain ⟨⟨name, rest⟩, hname, h⟩ := Option.bind_eq_some_iff.1 h
  obtain ⟨rest', hclose, h⟩ := Option.bind_eq_some_iff.1 h
  obtain rfl := Option.some.inj h
  have hrest : ∃ blanks, rest = blanks ++ ")".toList ++ rest' := by
    obtain ⟨blanks, hblanks, -⟩ := exists_eq_append_skipBlanks rest
    refine ⟨blanks, ?_⟩
    rw [List.append_assoc, ← eq_append_of_afterWord? hclose]
    exact hblanks
  obtain ⟨blanks, rfl⟩ := hrest
  refine ⟨[], behind, eq_append_of_afterWord? hword, by simp, fun _ => rfl, ?_⟩
  have hquoted : FirstQuoted name rest' given := (firstQuoted_of_quotedName? hname).of_skipBlanks.of_rest
  exact (hquoted.of_afterWord hopen (by simp [isQuote])).of_skipBlanks

/-- Each way to recognise imports finds pieces of the text that begin as imports of their form do. -/
theorem begins_of_mem_finders {finder : Finder} (hfinder : finder ∈ finders) (h : finder before cs = some found) :
    ∃ blanks behind, Begins cs found blanks behind := by
  simp only [finders, List.mem_cons, List.not_mem_nil, or_false] at hfinder
  rcases hfinder with rfl | rfl | rfl | rfl
  · exact begins_of_findFrom h
  · exact begins_of_findBare h
  · exact begins_of_findCall .require h
  · exact begins_of_findCall .dynamic h

end

/-! ### Search -/

section

variable {source : String} {finder : Finder} {before : Option Char} {cs blanks behind : List Char} {found : Find}

/-- Behind a find there is the rest of the text. -/
private theorem Begins.exists_eq_append (h : Begins cs found blanks behind) : ∃ taken, cs = taken ++ found.2.2 := by
  obtain ⟨between, q, q', more, hbehind, -⟩ := h.quoted
  refine ⟨blanks ++ (found.1.keyword.toList ++ (between ++ q :: (found.2.1.toList ++ q' :: more))), ?_⟩
  conv_lhs => rw [h.whole, hbehind]
  simp

/-- A search lists a find at the byte at which it begins. -/
theorem exists_of_mem_findAll (hfinder : finder ∈ finders) {fuel offset : Nat} {r : Specifier}
    (h : r ∈ findAll finder fuel before offset cs) : ∃ passed here rest blanks behind, cs = passed ++ here ∧
      r.offset = offset + byteLength passed ∧ Begins here (r.form, r.name, rest) blanks behind := by
  induction fuel generalizing before offset cs with
  | zero => cases h
  | succ fuel ih =>
    unfold findAll at h
    split at h
    · rename_i cs _ _ form name rest hfound
      obtain ⟨blanks, behind, hbegins⟩ := begins_of_mem_finders hfinder hfound
      rcases List.mem_cons.1 h with rfl | h
      · exact ⟨[], cs, rest, blanks, behind, rfl, rfl, hbegins⟩
      · obtain ⟨taken, hcs⟩ := hbegins.exists_eq_append
        have htaken : cs.take (cs.length - rest.length) = taken := by simp [hcs]
        rw [htaken] at h
        obtain ⟨passed, here, rest', blanks', behind', hrest, hoffset, hhere⟩ := ih h
        refine ⟨taken ++ passed, here, rest', blanks', behind', ?_, ?_, hhere⟩
        · rw [hcs, List.append_assoc]
          exact congrArg _ hrest
        · rw [hoffset, byteLength_append, Nat.add_assoc]
    · rename_i c rest hfound
      obtain ⟨passed, here, rest', blanks', behind', rfl, hoffset, hhere⟩ := ih h
      refine ⟨c :: passed, here, rest', blanks', behind', rfl, ?_, hhere⟩
      rw [hoffset, byteLength_cons, Nat.add_assoc]
    · cases h

end

/-- A text with an import begins with its word unless white space stands in front. -/
private theorem Begins.hasLead_iff {cs blanks behind : List Char} {found : Find} (h : Begins cs found blanks behind) :
    hasLead found.1.keyword (String.ofList cs) = true ↔ blanks = [] := by
  have hword : ∃ c word, found.1.keyword.toList = c :: word ∧ isBlank c = false := by
    cases found.1 <;> exact ⟨_, _, rfl, by decide⟩
  obtain ⟨c, word, hword, hc⟩ := hword
  rw [hasLead, String.toList_ofList, List.isPrefixOf_iff_prefix, h.whole, hword]
  constructor
  · intro hprefix
    cases blanks with
    | nil => rfl
    | cons b blanks =>
      obtain rfl : c = b := by simpa using (List.cons_prefix_cons.1 hprefix).1
      exact absurd (h.blank c (List.mem_cons_self ..)) (by simp [hc])
  · rintro rfl
    exact List.prefix_append ..

/-- The finds are in the order of the text, and at the byte of each an import begins: the name of the module stands
between the first two quotes behind the word.  The word stands right there if and only if there is no white space in
front, as there never is before a call. -/
theorem scanPatterns_points_iff (source : String) :
    ((scanPatterns source).Pairwise fun r r' => r.offset ≤ r'.offset) ∧
      ∀ r ∈ scanPatterns source, ∃ passed here rest blanks behind, source.toList = passed ++ here ∧
        r.offset = byteLength passed ∧ Begins here (r.form, r.name, rest) blanks behind ∧
          (hasLead r.form.keyword (String.ofList here) = true ↔ blanks = []) := by
  constructor
  · let le : Specifier → Specifier → Bool := fun r r' => decide (r.offset ≤ r'.offset)
    have htrans : ∀ a b c, le a b = true → le b c = true → le a c = true := by
      intro a b c hab hbc
      simp only [le, decide_eq_true_eq] at hab hbc ⊢
      omega
    have htotal : ∀ a b, (le a b || le b a) = true := by
      intro a b
      simp only [le, Bool.or_eq_true, decide_eq_true_eq]
      omega
    refine (List.pairwise_mergeSort htrans htotal _).imp ?_
    intro r r' hle
    exact of_decide_eq_true hle
  · intro r hr
    rw [scanPatterns, List.mem_mergeSort, List.mem_flatMap] at hr
    obtain ⟨finder, hfinder, hr⟩ := hr
    obtain ⟨passed, here, rest, blanks, behind, hsource, hoffset, hbegins⟩ := exists_of_mem_findAll hfinder hr
    refine ⟨passed, here, rest, blanks, behind, hsource, ?_, hbegins, hbegins.hasLead_iff⟩
    rw [hoffset, Nat.zero_add]

/-- The import in an indented line behind an empty one is listed at the end of the empty line. -/
theorem scanPatterns_points_iff_of_indented : ∃ (source : String) (r : Specifier) (here rest blanks behind : List Char),
    source = "\n  import './a';" ∧ r ∈ scanPatterns source ∧ source.toList = here ∧ r.offset = 0 ∧
      Begins here (r.form, r.name, rest) blanks behind ∧ r.form.keyword = "import" ∧ r.name = "./a" ∧
        hasLead r.form.keyword (String.ofList here) = false ∧ blanks ≠ [] := by
  have hmem : (⟨"./a", .static, 0⟩ : Specifier) ∈ scanPatterns "\n  import './a';" := by
    rw [scanPatterns, List.mem_mergeSort, List.mem_flatMap]
    exact ⟨findBare, by simp [finders], by decide⟩
  obtain ⟨passed, here, rest, blanks, behind, hsource, hoffset, hbegins, hlead⟩ := (scanPatterns_points_iff _).2 _ hmem
  have hpassed : passed = [] := by
    by_contra hne
    have hpos := byteLength_pos hne
    dsimp only at hoffset
    omega
  subst hpassed
  have hnot : hasLead "import" (String.ofList here) = false := by
    rw [← List.nil_append here, ← hsource]
    decide
  refine ⟨_, _, here, rest, blanks, behind, rfl, hmem, hsource, rfl, hbegins, rfl, rfl, hnot, ?_⟩
  rw [Ne, ← hlead]
  exact Bool.eq_false_iff.1 hnot

end ScriptHost.Imports
