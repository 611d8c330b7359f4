import ScriptHost.Proofs.Syntax.Tree

/-!
# Statements on lines of their own

Where texts on lines of their own are read one after the other, no text is touched by what stands before it.  So they
are the statements that are read if and only if each of them, with those behind it on the lines below, is read to its end
and no further (`reads_of_beginsWith`, `beginsWith_of_reads`).  For the second direction the characters are counted that
are no line ends: the statements take all of them, and nothing but line ends is skipped.
-/

namespace ScriptHost.Syntax.Script

open ScriptHost.Text

/-- Texts, each with a line end behind it. -/
def onLines (texts : List (List Char)) : List Char := texts.flatMap (· ++ ['\n'])

theorem onLines_cons (t : List Char) (texts : List (List Char)) :
    onLines (t :: texts) = t ++ '\n' :: onLines texts := by
  rw [onLines, List.flatMap_cons, List.append_assoc]
  rfl

/-- A text begins with a statement, which covers its first characters `taken`. -/
def BeginsWith (d : Dialect) (opening : Bool) (text taken : List Char) : Prop :=
  ∃ s n, readNext d opening ⟨0, text⟩ = .matched s ∧ s.nodes = [n] ∧ n.start = 0 ∧ n.stop = byteLength taken

/-- Text that does not begin with white space. -/
def Solid (t : List Char) : Prop := ∃ c rest, t = c :: rest ∧ isSpacing c = false

/-- The characters `cs` come next, after the line end that `brk` may be. -/
structure Ahead (c : Cursor) (brk cs : List Char) : Prop where
  atMostOne : brk = [] ∨ brk = ['\n']
  rest : c.rest = brk ++ cs

/-- The number of characters other than line ends. -/
def ink (cs : List Char) : Nat := cs.countP (· != '\n')

private theorem ink_append (cs cs' : List Char) : ink (cs ++ cs') = ink cs + ink cs' := List.countP_append

section

variable {d : Dialect} {opening : Bool} {c : Cursor} {brk cs : List Char} {nodes : List Node}
  {texts : List (List Char)}

private theorem Ahead.alike (h : Ahead c brk cs) :
    Gap.Alike (c.offset + byteLength brk) (Gap.scan ⟨0, cs⟩) (Gap.scan c) := by
  obtain ⟨offset, rest⟩ := c
  obtain ⟨rfl | rfl, hrest⟩ := h
  · obtain rfl : rest = cs := hrest
    have hmoved := (Gap.scan_shift offset ⟨0, rest⟩).1
    rwa [Cursor.shift, Nat.zero_add] at hmoved
  · obtain rfl : rest = '\n' :: cs := hrest
    exact Gap.scan_line offset cs

theorem append_inj_of_byteLength {a b a' b' : List Char} (h : a ++ a' = b ++ b') (hlen : byteLength a = byteLength b) :
    a = b ∧ a' = b' := by
  have hempty : ∀ {x y : List Char}, byteLength x = byteLength (x ++ y) → y = [] := by
    intro x y hxy
    by_contra hy
    have hpos := byteLength_pos hy
    rw [byteLength_append] at hxy
    omega
  rcases List.append_eq_append_iff.1 h with ⟨more, rfl, rfl⟩ | ⟨more, rfl, rfl⟩
  · obtain rfl := hempty hlen
    exact ⟨(List.append_nil a).symm, rfl⟩
  · obtain rfl := hempty hlen.symm
    exact ⟨List.append_nil b, rfl⟩

/-- If the first token stands at the beginning of a text, nothing is skipped. -/
theorem rest_scan_of_offset {text : List Char} (h : (Gap.scan ⟨0, text⟩).next.offset = 0) :
    (Gap.scan ⟨0, text⟩).next.rest = text := by
  obtain ⟨skipped, hrest, hoffset⟩ := Gap.leadsTo_scan ⟨0, text⟩
  have hskipped : skipped = [] := by
    by_contra hne
    have hpos := byteLength_pos hne
    omega
  rw [hskipped] at hrest
  exact hrest.symm

/-- If every text is read to its end and no further, they are what is read. -/
theorem reads_of_beginsWith (hahead : Ahead c brk (onLines texts))
    (h : ∀ pre t post, texts = pre ++ t :: post → BeginsWith d (opening && pre.isEmpty) (onLines (t :: post)) t) :
    ∃ nodes, Reads d opening c nodes texts := by
  induction texts generalizing opening c brk with
  | nil =>
    refine ⟨[], .ended ?_⟩
    rw [hahead.alike.next]
    rfl
  | cons t texts ih =>
    obtain ⟨s, n, hread, hnodes, hstart, hstop⟩ := h [] t texts rfl
    rw [List.isEmpty_nil, Bool.and_true] at hread
    obtain ⟨n₀, taken₀, hn₀⟩ := covers_readNext hread
    obtain rfl : n = n₀ := List.singleton_inj.1 (hnodes.symm.trans hn₀.nodes)
    -- in front of the texts nothing is skipped, and the first of them is taken
    have hnext : (Gap.scan ⟨0, onLines (t :: texts)⟩).next.rest = t ++ '\n' :: onLines texts := by
      rw [rest_scan_of_offset (hn₀.start ▸ hstart), onLines_cons]
    have hlength : byteLength t = byteLength taken₀ := by
      have htail := hn₀.tail
      rw [← hn₀.stop, hstop, ← hn₀.start, hstart] at htail
      omega
    obtain ⟨rfl, hleft⟩ := append_inj_of_byteLength (hnext.symm.trans hn₀.rest) hlength
    -- where the same comes next, it is taken as well
    rcases readNext_alike d opening hahead.alike with ⟨s', hread', hread''⟩ | ⟨_, _, hfailed, -⟩
    · obtain rfl : s = s' := Reading.matched.inj (hread.symm.trans hread')
      obtain ⟨n', taken, hn⟩ := covers_readNext hread''
      have hsame : (Gap.scan c).next.rest = t ++ s.tail.rest := by
        rw [hahead.alike.next]
        exact hn₀.rest
      obtain rfl : t = taken := List.append_cancel_right (hsame.symm.trans hn.rest)
      have hbehind : Ahead (s.shift (c.offset + byteLength brk)).tail ['\n'] (onLines texts) := ⟨.inr rfl, hleft.symm⟩
      have hlater : ∀ pre t' post, texts = pre ++ t' :: post →
          BeginsWith d (false && pre.isEmpty) (onLines (t' :: post)) t' := by
        intro pre t' post heq
        have hbegins := h (t :: pre) t' post (by rw [heq, List.cons_append])
        rwa [List.isEmpty_cons, Bool.and_false, ← Bool.false_and pre.isEmpty] at hbegins
      obtain ⟨nodes, hnodes⟩ := ih hbehind hlater
      exact ⟨n' :: nodes, .next hread'' hn hnodes⟩
    · rw [hread] at hfailed
      cases hfailed

private theorem ink_le_of_reads (h : Reads d opening c nodes texts) : ink (onLines texts) ≤ ink c.rest := by
  induction h with
  | ended => exact Nat.zero_le _
  | next hread hn hrest ih =>
    rename_i opening c s n taken nodes texts
    obtain ⟨skipped, hskipped, -⟩ := Gap.leadsTo_scan c
    have hline : ink ('\n' :: onLines texts) = ink (onLines texts) := List.countP_cons_of_neg (by decide)
    rw [hskipped, hn.rest, onLines_cons, ink_append, ink_append, ink_append, hline]
    omega

private theorem breaks_inj {breaks breaks' t more more' : List Char} (ht : Solid t) (hbreaks : ink breaks = 0)
    (hbreaks' : ink breaks' = 0) (h : breaks ++ (t ++ more) = breaks' ++ (t ++ more')) :
    breaks = breaks' ∧ more = more' := by
  obtain ⟨ch, rest, rfl, hch⟩ := ht
  have hne : ch ≠ '\n' := by
    rintro rfl
    exact absurd hch (by decide)
  have htake : ∀ {breaks : List Char} (more : List Char), ink breaks = 0 →
      (breaks ++ (ch :: rest ++ more)).takeWhile (· == '\n') = breaks := by
    intro breaks more hbreaks
    have hall : ∀ x ∈ breaks, (x == '\n') = true := by simpa [ink, List.countP_eq_zero] using hbreaks
    rw [List.takeWhile_append_of_pos hall, List.cons_append, List.takeWhile_cons_of_neg (by simpa using hne),
      List.append_nil]
  obtain rfl : breaks = breaks' := by rw [← htake more hbreaks, h, htake more' hbreaks']
  exact ⟨rfl, List.append_cancel_left (List.append_cancel_left h)⟩

theorem solid_of_reads (h : Reads d opening c nodes texts) : ∀ t ∈ texts, Solid t := by
  induction h with
  | ended => exact nofun
  | next hread hn hrest ih =>
    rename_i opening c s n taken nodes texts
    refine List.forall_mem_cons.2 ⟨?_, ih⟩
    obtain ⟨ch, rest, htaken⟩ := List.exists_cons_of_ne_nil hn.ne_nil
    have hnext : (Gap.scan c).next.rest = ch :: (rest ++ s.tail.rest) := by
      rw [hn.rest, htaken, List.cons_append]
    exact ⟨ch, rest, htaken, Gap.head_of_scan hnext⟩

/-- If texts on lines of their own are what is read, each is read to its end and no further. -/
theorem beginsWith_of_reads (h : Reads d opening c nodes texts) (hahead : Ahead c brk (onLines texts))
    (hsolid : ∀ t ∈ texts, Solid t) {pre post : List (List Char)} {t : List Char} (ht : texts = pre ++ t :: post) :
    BeginsWith d (opening && pre.isEmpty) (onLines (t :: post)) t := by
  induction h generalizing brk pre with
  | ended => simp at ht
  | next hread hn hrest ih =>
    rename_i opening c s n taken nodes texts
    obtain ⟨hfirst, hlater⟩ := List.forall_mem_cons.1 hsolid
    obtain ⟨skipped, hskipped, hoffset⟩ := Gap.leadsTo_scan c
    have hbrk : ink brk = 0 := by
      rcases hahead.atMostOne with rfl | rfl
      · rfl
      · rfl
    have htext : skipped ++ (taken ++ s.tail.rest) = brk ++ (taken ++ '\n' :: onLines texts) := by
      rw [← onLines_cons, ← hahead.rest, hskipped, hn.rest]
    -- all that is not a line end has been read, so that only line ends are skipped
    have hink : ink skipped = 0 := by
      have hcount := congrArg ink htext
      have hline : ink ('\n' :: onLines texts) = ink (onLines texts) := List.countP_cons_of_neg (by decide)
      have hle := ink_le_of_reads hrest
      rw [ink_append, ink_append, ink_append, ink_append, hline] at hcount
      omega
    obtain ⟨rfl, hleft⟩ := breaks_inj hfirst hink hbrk htext
    cases pre with
    | cons t' pre =>
      obtain ⟨rfl, htexts⟩ := List.cons_eq_cons.1 ht
      rw [List.isEmpty_cons, Bool.and_false, ← Bool.false_and pre.isEmpty]
      exact ih ⟨.inr rfl, hleft⟩ hlater htexts
    | nil =>
      obtain ⟨rfl, rfl⟩ := List.cons_eq_cons.1 ht
      rw [List.isEmpty_nil, Bool.and_true]
      rcases readNext_alike d opening hahead.alike with ⟨s₀, hread₀, hread'⟩ | ⟨_, _, -, hfailed⟩
      · obtain rfl := Reading.matched.inj (hread.symm.trans hread')
        obtain ⟨n₀, taken₀, hn₀⟩ := covers_readNext hread₀
        have hshift : n = n₀.shift (c.offset + byteLength skipped) := by
          have hnodes : (s₀.shift (c.offset + byteLength skipped)).nodes = s₀.nodes.map (Node.shift _) := rfl
          rw [hn.nodes, hn₀.nodes] at hnodes
          exact List.singleton_inj.1 hnodes
        have hstart := hn.start
        have hstop := hn.stop
        have htail := hn.tail
        rw [hshift, Node.start_shift] at hstart
        rw [hshift, Node.stop_shift] at hstop
        exact ⟨s₀, n₀, hread₀, hn₀.nodes, by omega, by omega⟩
      · rw [hread] at hfailed
        cases hfailed

end

end ScriptHost.Syntax.Script
