import Mathlib.Data.List.DropRight
import Mathlib.Data.List.TakeWhile
import ScriptHost.Imports.Pattern

/-!
# Strings without their quotes

The name of a module is the text of a string without its quotes.  These are not taken off one by one: at either end all
double quotes are dropped, and then all single ones (`stringValue?_eq`).  So what stands between single quotes is found
as it is, and what stands between double quotes is found without the single quotes at its own ends (`Stripped`,
`decoded_eq_body_iff`).
-/

namespace ScriptHost.Imports

open ScriptHost.Syntax ScriptHost.Text

/-! ### Quotes at the ends of a text -/

/-- The text without the quotes `q` at either end, however many there are. -/
def unquoted (q : Char) (s : String) : String := trimEndWhile (· = q) (trimStartWhile (· = q) s)

/-- A text between two quotes `q`. -/
def quoted (q : Char) (body : String) : String := String.ofList (q :: (body.toList ++ [q]))

/-- A text that neither begins nor ends with the quote `q`. -/
def Bare (q : Char) (s : String) : Prop := s.toList.head? ≠ some q ∧ s.toList.getLast? ≠ some q

/-- What is left of a text without the quotes `q` at its ends. -/
structure Stripped (q : Char) (s rest : String) : Prop where
  bare : Bare q rest
  whole : ∃ before after, s.toList = before ++ (rest.toList ++ after) ∧ (∀ c ∈ before, c = q) ∧ ∀ c ∈ after, c = q

section

variable {q q' : Char} {body s : String}

private theorem toList_unquoted (q : Char) (s : String) :
    (unquoted q s).toList = (s.toList.dropWhile (· = q)).rdropWhile (· = q) := by
  rw [unquoted, trimEndWhile, trimStartWhile, String.toList_ofList, String.toList_ofList]
  rfl

private theorem bare_unquoted (q : Char) (s : String) : Bare q (unquoted q s) := by
  rw [Bare, toList_unquoted]
  constructor
  · intro h
    -- what is left begins as it did before the end was dropped
    have hhead : (s.toList.dropWhile (· = q)).head? = some q := by
      obtain ⟨rest, hrest⟩ := List.rdropWhile_prefix (· = q) (l := s.toList.dropWhile (· = q))
      rw [← hrest, List.head?_append, h, Option.some_or]
    have hnot := List.head?_dropWhile_not (· = q) s.toList
    rw [hhead] at hnot
    simp at hnot
  · intro h
    have hne := List.ne_nil_of_mem (List.mem_of_mem_getLast? h)
    rw [List.getLast?_eq_some_getLast hne, Option.some_inj] at h
    exact List.rdropWhile_last_not _ _ hne (decide_eq_true h)

private theorem stripped_unquoted (q : Char) (s : String) : Stripped q s (unquoted q s) := by
  refine ⟨bare_unquoted q s, s.toList.takeWhile (· = q), (s.toList.dropWhile (· = q)).rtakeWhile (· = q), ?_, ?_, ?_⟩
  · rw [toList_unquoted, List.rdropWhile_append_rtakeWhile, List.takeWhile_append_dropWhile]
  · intro c hc
    simpa using List.mem_takeWhile_imp hc
  · intro c hc
    simpa using List.mem_rtakeWhile_imp hc

/-- A text keeps its ends if and only if there is no quote at either. -/
private theorem unquoted_eq_self_iff : unquoted q s = s ↔ Bare q s := by
  rw [← String.toList_inj, toList_unquoted, Bare]
  generalize s.toList = cs
  have hfirst : cs.dropWhile (· = q) = cs ↔ cs.head? ≠ some q := by
    cases cs <;> simp [List.dropWhile_eq_self_iff]
  have hlast : cs.rdropWhile (· = q) = cs ↔ cs.getLast? ≠ some q := by
    rw [List.rdropWhile_eq_self_iff]
    cases cs using List.reverseRecOn <;> simp
  rw [← hfirst, ← hlast]
  constructor
  · intro h
    -- nothing can be dropped at the end to make up for what was dropped at the start
    have hlength := (List.rdropWhile_prefix (· = q) (l := cs.dropWhile (· = q))).length_le
    rw [h] at hlength
    have hstart : cs.dropWhile (· = q) = cs := (List.dropWhile_suffix _).eq_of_length_le hlength
    rw [hstart] at h
    exact ⟨hstart, h⟩
  · rintro ⟨hstart, hend⟩
    rw [hstart, hend]

/-- A quote that does not occur in a text is taken off just once. -/
private theorem unquoted_quoted (hbody : q ∉ body.toList) : unquoted q (quoted q body) = body := by
  rw [← String.toList_inj, toList_unquoted, quoted, String.toList_ofList, List.dropWhile_cons_of_pos (by simp)]
  generalize body.toList = cs at hbody ⊢
  have hend : cs.rdropWhile (· = q) = cs := by
    rw [List.rdropWhile_eq_self_iff]
    intro hne hlast
    exact hbody (of_decide_eq_true hlast ▸ List.getLast_mem hne)
  cases cs with
  | nil => simp
  | cons c cs =>
    have hc : c ≠ q := fun h => hbody (h ▸ List.mem_cons_self ..)
    rw [List.cons_append, List.dropWhile_cons_of_neg (by simpa using hc), ← List.cons_append,
      List.rdropWhile_concat_pos _ _ _ (by simp), hend]

/-- Another quote is not taken off. -/
private theorem unquoted_quoted_of_ne (hne : q' ≠ q) : unquoted q (quoted q' body) = quoted q' body := by
  rw [unquoted_eq_self_iff, Bare, quoted, String.toList_ofList, ← List.cons_append, List.getLast?_concat]
  simp [hne]

end

/-! ### Strings -/

section

variable {source : String} {n : Node}

theorem stringValue?_eq (hkind : n.kind = "string") :
    stringValue? source n = some (unquoted '\'' (unquoted '"' (n.textIn source))) := by
  rw [stringValue?, if_pos hkind]
  rfl

private theorem stringValue?_of_single {body : String} (hkind : n.kind = "string") (hbody : '\'' ∉ body.toList)
    (htext : n.textIn source = quoted '\'' body) : stringValue? source n = some body := by
  rw [stringValue?_eq hkind, htext, unquoted_quoted_of_ne (by decide), unquoted_quoted hbody]

private theorem stringValue?_of_double {body : String} (hkind : n.kind = "string") (hbody : '"' ∉ body.toList)
    (htext : n.textIn source = quoted '"' body) : stringValue? source n = some (unquoted '\'' body) := by
  rw [stringValue?_eq hkind, htext, unquoted_quoted hbody]

/-- A string without its own quotes inside has a value.  Between single quotes that is what stands there; between double
quotes it is what is left of it without the single quotes at its ends, which is all of it if there are none. -/
theorem decoded_eq_body_iff {q : Char} (hq : isQuote q = true) {body : String} (hkind : n.kind = "string")
    (hbody : q ∉ body.toList) (htext : n.textIn source = quoted q body) :
    ∃ value, stringValue? source n = some value ∧ (q = '\'' → value = body) ∧ (q = '"' → Stripped '\'' body value) ∧
      (value = body ↔ (q = '"' → Bare '\'' body)) := by
  have hquote : q = '\'' ∨ q = '"' := by simpa [isQuote] using hq
  rcases hquote with rfl | rfl
  · refine ⟨body, stringValue?_of_single hkind hbody htext, fun _ => rfl, ?_, ?_⟩
    · intro h
      simp at h
    · simp
  · refine ⟨unquoted '\'' body, stringValue?_of_double hkind hbody htext, ?_, fun _ => stripped_unquoted .., ?_⟩
    · intro h
      simp at h
    · simp [unquoted_eq_self_iff]

/-- A module whose name begins with a single quote is found without it. -/
theorem decoded_eq_body_iff_of_leading_quote : ∃ (source : String) (s n : Node),
    source = "import \"'a\";" ∧ s ∈ (Script.tree .plain source).children ∧ s.child? .source = some n ∧
      n.kind = "string" ∧ isQuote '"' = true ∧ '"' ∉ "'a".toList ∧ n.textIn source = quoted '"' "'a" ∧
      stringValue? source n = some "a" ∧ Stripped '\'' "'a" "a" ∧ ¬ Bare '\'' "'a" ∧
      stringValue? source n ≠ some "'a" ∧ scan source = [⟨"a", .static, 0⟩] := by
  let source := "import \"'a\";"
  have hparse : ((Script.tree .plain source).children.any fun s => (s.child? .source).any fun n =>
      n.kind == "string" && n.textIn source == quoted '"' "'a" && stringValue? source n == some "a") = true := by
    decide +kernel
  simp only [List.any_eq_true, Option.any_eq_true, Bool.and_eq_true, beq_iff_eq] at hparse
  obtain ⟨s, hs, n, hn, ⟨hkind, htext⟩, hfound⟩ := hparse
  have hscan : scan source = [⟨"a", .static, 0⟩] := by decide +kernel
  have hq : isQuote '"' = true := by decide
  have hbody : '"' ∉ "'a".toList := by decide
  have hbare : ¬ Bare '\'' "'a" := fun h => h.1 (by decide)
  obtain ⟨value, hvalue, -, hstripped, hiff⟩ := decoded_eq_body_iff hq hkind hbody htext
  have hlost : value ≠ "'a" := fun h => hbare (hiff.1 h rfl)
  obtain rfl : "a" = value := Option.some_inj.1 (hfound.symm.trans hvalue)
  refine ⟨source, s, n, rfl, hs, hn, hkind, hq, hbody, htext, hvalue, hstripped rfl, hbare, ?_, hscan⟩
  rw [hvalue, Ne, Option.some_inj]
  exact hlost

end

end ScriptHost.Imports
