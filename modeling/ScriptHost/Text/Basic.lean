/-!
# White space and lines

The Unicode property White_Space, trimming by it, and the division of a text into lines.  A line ends at a line feed,
and a carriage return before that line feed belongs to the line end; the last line may lack its end.
-/

namespace ScriptHost.Text

/-- The characters with the Unicode property White_Space. -/
def isBlank (c : Char) : Bool :=
  let n := c.toNat
  (9 ≤ n && n ≤ 13) || n == 0x20 || n == 0x85 || n == 0xA0 || n == 0x1680 || (0x2000 ≤ n && n ≤ 0x200A) ||
    n == 0x2028 || n == 0x2029 || n == 0x202F || n == 0x205F || n == 0x3000

/-- The number of bytes that a list of characters takes in UTF-8. -/
def byteLength (cs : List Char) : Nat := cs.foldl (fun n c => n + c.utf8Size) 0

/-- Drops the last characters as long as they satisfy `p`. -/
def dropEndWhile (p : Char → Bool) (cs : List Char) : List Char := (cs.reverse.dropWhile p).reverse

/-- The text without the characters of `p` at its start. -/
def trimStartWhile (p : Char → Bool) (s : String) : String := String.ofList (s.toList.dropWhile p)

/-- The text without the characters of `p` at its end. -/
def trimEndWhile (p : Char → Bool) (s : String) : String := String.ofList (dropEndWhile p s.toList)

/-- The text without white space at its start. -/
def trimStart (s : String) : String := trimStartWhile isBlank s

/-- The text without white space at its end. -/
def trimEnd (s : String) : String := trimEndWhile isBlank s

/-- The text without white space at either end. -/
def trim (s : String) : String := trimEnd (trimStart s)

/-- Whether a text starts with `lead`. -/
def hasLead (lead s : String) : Bool := lead.toList.isPrefixOf s.toList

/-- Whether a text ends with `tail`. -/
def hasTail (tail s : String) : Bool := tail.toList.isSuffixOf s.toList

/-- The text after `lead`, if it starts with `lead`. -/
def afterLead? (lead s : String) : Option String := (lead.toList.isPrefixOf? s.toList).map String.ofList

/-- The text before `tail`, if it ends with `tail`. -/
def beforeTail? (tail s : String) : Option String := (tail.toList.isSuffixOf? s.toList).map String.ofList

/-- Takes `lead` off the front of a list at most `n` times. -/
def dropRepeats (lead : List Char) : Nat → List Char → List Char
  | 0, cs => cs
  | n + 1, cs => (lead.isPrefixOf? cs).elim cs (dropRepeats lead n)

/-- The text without any repetition of `lead` at its start. -/
def dropLeads (lead s : String) : String := String.ofList (dropRepeats lead.toList s.length s.toList)

/-- The text without any repetition of `tail` at its end. -/
def dropTails (tail s : String) : String :=
  String.ofList (dropRepeats tail.toList.reverse s.length s.toList.reverse).reverse

/-- A reversed line without the carriage return at its end. -/
private def closedLine : List Char → List Char
  | '\r' :: rest => rest.reverse
  | line => line.reverse

/-- The lines of `cs`, the first of which begins with the reversed list `line`. -/
private def linesFrom : List Char → List Char → List (List Char)
  | [], [] => []
  | line, [] => [line.reverse]
  | line, '\n' :: rest => closedLine line :: linesFrom [] rest
  | line, c :: rest => linesFrom (c :: line) rest

/-- The lines of a text, without their ends. -/
def lines (s : String) : List String := (linesFrom [] s.toList).map String.ofList

private theorem linesFrom_append {line : List Char} (h : '\n' ∉ line) (begun rest : List Char) :
    linesFrom begun (line ++ rest) = linesFrom (line.reverse ++ begun) rest := by
  induction line generalizing begun with
  | nil => rfl
  | cons c line ih =>
    rw [List.mem_cons, not_or] at h
    rw [List.cons_append, linesFrom, ih h.2, List.reverse_cons, List.append_assoc]
    · rfl
    · exact fun hc => h.1 hc.symm

private theorem head?_linesFrom {c : Char} (hc : c ≠ '\r') (begun more rest : List Char) :
    ∃ more', (linesFrom (more ++ c :: begun) rest).head? = some (begun.reverse ++ c :: more') := by
  have hreverse : ∀ more : List Char, (more ++ c :: begun).reverse = begun.reverse ++ c :: more.reverse := by simp
  induction rest generalizing more with
  | nil =>
    refine ⟨more.reverse, ?_⟩
    rw [linesFrom, hreverse, List.head?_cons]
    simp
  | cons d rest ih =>
    by_cases hd : d = '\n'
    · subst hd
      rw [linesFrom, List.head?_cons]
      unfold closedLine
      split
      · rename_i heq
        cases more with
        | nil => exact absurd (List.cons.inj heq).1 hc
        | cons d more =>
          have htail : more ++ c :: begun = _ := (List.cons.inj heq).2
          rw [← htail, hreverse]
          exact ⟨_, rfl⟩
      · rw [hreverse]
        exact ⟨_, rfl⟩
    · rw [linesFrom]
      · exact ih (d :: more)
      · exact hd

/-- The first line of a text begins with what stands before any line end, up to a character that is no part of one. -/
theorem head?_lines {line : List Char} (h : '\n' ∉ line) {c : Char} (hc : c ≠ '\n') (hc' : c ≠ '\r')
    (rest : List Char) :
    ∃ more, (lines (String.ofList (line ++ c :: rest))).head? = some (String.ofList (line ++ c :: more)) := by
  obtain ⟨more, hmore⟩ := head?_linesFrom hc' line.reverse [] rest
  refine ⟨more, ?_⟩
  rw [lines, String.toList_ofList, List.head?_map, linesFrom_append h, List.append_nil, linesFrom,
    ← List.nil_append (c :: line.reverse), hmore, List.reverse_reverse]
  · rfl
  · exact hc

/-- The part of a text between two byte offsets that stand at character boundaries. -/
def slice (s : String) (start stop : Nat) : String := String.Pos.Raw.extract s ⟨start⟩ ⟨stop⟩

end ScriptHost.Text
