import ScriptHost.Disk

/-!
# A record that is made of two files

The two texts of a compiled script are made of the script itself and its declarations.  When something is told of the
script, its text is read and merged with the declarations; when something is told of the declarations, the text that has
been read before is merged with them again (`absorb`).  What is told may be told late, and merging may fail, so that the
text is not read then.  In the end the text that has been read is that of the script if and only if it was right from
the beginning and stayed the same, or what was told of it after its last change was absorbed (`raw_final_iff`), and what
was made of it is in step with the declarations if and only if it was so in the beginning or there was another merge
(`inStep_final_iff`).
-/

namespace ScriptHost.Pair

/-- Which of the two files something is told of. -/
inductive Subject where
  | script
  | declarations
  deriving DecidableEq

/-- What the two files hold at a time, if there are declarations, and which of them something is told of. -/
structure Moment where
  text : String
  declarations : Option Content
  told : Option Subject

/-- The text that has been read and what has been made of it. -/
structure Texts where
  raw : String
  content : String

/-- A way to merge a text with its declarations, if there are any and the two go together. -/
abbrev Merge := String → Option Content → Option String

/-! ### What is told once -/

/-- The texts after something has been told, if nothing has failed. -/
def absorb (merge : Merge) (x : Moment) (s : Texts) : Option Texts :=
  match x.told with
  | none => some s
  | some .script =>
    if s.raw = x.text then some s else (merge x.text x.declarations).map fun content => ⟨x.text, content⟩
  | some .declarations => (merge s.raw x.declarations).map fun content => ⟨s.raw, content⟩

/-- The texts after something has been told; they stay as they are if anything has failed. -/
def next (merge : Merge) (s : Texts) (x : Moment) : Texts := (absorb merge x s).getD s

variable {merge : Merge} {x : Moment} {s : Texts}

private theorem absorb_of_raw (hx : x.told = some .script) (hs : s.raw = x.text) : absorb merge x s = some s := by
  simp [absorb, hx, hs]

private theorem absorb_of_news (hx : x.told = some .script) (hne : x.text ≠ s.raw) :
    absorb merge x s = (merge x.text x.declarations).map fun content => ⟨x.text, content⟩ := by
  simp [absorb, hx, Ne.symm hne]

private theorem absorb_of_declarations (hx : x.told = some .declarations) :
    absorb merge x s = (merge s.raw x.declarations).map fun content => ⟨s.raw, content⟩ := by
  simp [absorb, hx]

private theorem raw_next_of_script (hx : x.told = some .script) (ha : (absorb merge x s).isSome) :
    (next merge s x).raw = x.text := by
  unfold next
  by_cases hraw : s.raw = x.text
  · rw [absorb_of_raw hx hraw]
    exact hraw
  · rw [absorb_of_news hx (Ne.symm hraw), Option.isSome_map, Option.isSome_iff_exists] at ha
    obtain ⟨content, hm⟩ := ha
    rw [absorb_of_news hx (Ne.symm hraw), hm]
    rfl

private theorem raw_next_of_ne_script (hx : x.told ≠ some .script) : (next merge s x).raw = s.raw := by
  unfold next absorb
  cases ht : x.told with
  | none => rfl
  | some w =>
    cases w with
    | script => exact absurd ht hx
    | declarations => cases merge s.raw x.declarations <;> rfl

/-- The right text has been read after something was told if and only if it was read then, or it had been read before and
nothing was told of the script. -/
private theorem raw_next_iff : (next merge s x).raw = x.text ↔
    (x.told = some .script ∧ (absorb merge x s).isSome) ∨ (x.told ≠ some .script ∧ s.raw = x.text) := by
  by_cases hx : x.told = some .script
  · constructor
    · intro hraw
      refine .inl ⟨hx, ?_⟩
      cases ha : absorb merge x s with
      | some s' => rfl
      | none =>
        -- nothing has changed, so the text was the right one before, and reading it again does not fail
        rw [next, ha, Option.getD_none] at hraw
        rw [absorb_of_raw hx hraw] at ha
        cases ha
    · rintro (⟨-, ha⟩ | ⟨hne, -⟩)
      · exact raw_next_of_script hx ha
      · exact absurd hx hne
  · rw [raw_next_of_ne_script hx]
    simp [hx]

/-! ### What is told in time -/

/-- The texts after all that has been told. -/
def final (merge : Merge) (s : Texts) (moments : List Moment) : Texts := moments.foldl (next merge) s

section

variable {α : Type} {seen : Moment → α} {subject : Subject} {a : α} {moments : List Moment}

/-- Whenever what is seen changes, something is told of it later. -/
def Told (seen : Moment → α) (subject : Subject) : α → List Moment → Prop
  | _, [] => True
  | a, x :: rest => (seen x ≠ a → ∃ y ∈ x :: rest, y.told = some subject) ∧ Told seen subject (seen x) rest

/-- What is seen in the end. -/
def last (seen : Moment → α) : α → List Moment → α := List.foldl fun _ => seen

theorem told_of_change (ht : Told seen subject a moments) (hchange : ∃ x ∈ moments, seen x ≠ a) :
    ∃ y ∈ moments, y.told = some subject := by
  induction moments generalizing a with
  | nil => simp at hchange
  | cons x rest ih =>
    obtain ⟨hnow, hlater⟩ := ht
    by_cases hx : seen x = a
    · obtain ⟨y, hy, hne⟩ := hchange
      rcases List.mem_cons.1 hy with rfl | hy
      · exact absurd hx hne
      · obtain ⟨z, hz, htold⟩ := ih hlater ⟨y, hy, by rwa [hx]⟩
        exact ⟨z, List.mem_cons_of_mem x hz, htold⟩
    · exact hnow hx

end

/-! ### The text that has been read -/

/-- The script has the same text all the time. -/
def Steady (text : String) (moments : List Moment) : Prop := ∀ x ∈ moments, x.text = text

/-- After the last change of the script, something that was told of it has been absorbed. -/
def Caught (merge : Merge) (s : Texts) (moments : List Moment) : Prop :=
  ∃ before x after, moments = before ++ x :: after ∧ x.told = some .script ∧
    (absorb merge x (final merge s before)).isSome ∧ Steady x.text after

private theorem caught_cons_iff {rest : List Moment} : Caught merge s (x :: rest) ↔
    (x.told = some .script ∧ (absorb merge x s).isSome ∧ Steady x.text rest) ∨ Caught merge (next merge s x) rest := by
  constructor
  · rintro ⟨before, y, after, heq, htold, ha, hsteady⟩
    cases before with
    | nil =>
      obtain ⟨rfl, rfl⟩ := List.cons.inj heq
      exact .inl ⟨htold, ha, hsteady⟩
    | cons z before =>
      obtain ⟨rfl, rfl⟩ := List.cons.inj heq
      exact .inr ⟨before, y, after, rfl, htold, ha, hsteady⟩
  · rintro (⟨htold, ha, hsteady⟩ | ⟨before, y, after, rfl, htold, ha, hsteady⟩)
    · exact ⟨[], x, rest, rfl, htold, ha, hsteady⟩
    · exact ⟨x :: before, y, after, rfl, htold, ha, hsteady⟩

/-- If the right text has been read and does not change any more, whatever is told of the script is absorbed. -/
private theorem caught_of_steady {text : String} {moments : List Moment} (hsteady : Steady text moments)
    (hs : s.raw = text) (htold : ∃ y ∈ moments, y.told = some .script) : Caught merge s moments := by
  induction moments generalizing s with
  | nil => simp at htold
  | cons x rest ih =>
    obtain ⟨hx, hrest⟩ := List.forall_mem_cons.1 hsteady
    rw [caught_cons_iff]
    by_cases hscript : x.told = some .script
    · have ha : absorb merge x s = some s := absorb_of_raw hscript (hs.trans hx.symm)
      exact .inl ⟨hscript, by rw [ha]; rfl, by rw [hx]; exact hrest⟩
    · obtain ⟨y, hy, hyt⟩ := htold
      rcases List.mem_cons.1 hy with rfl | hy
      · exact absurd hyt hscript
      · exact .inr (ih hrest ((raw_next_of_ne_script hscript).trans hs) ⟨y, hy, hyt⟩)

/-- The text that has been read in the end is that of the script if and only if it was right from the beginning and
stayed the same, or what was told of it after its last change was absorbed. -/
theorem raw_final_iff {text : String} {moments : List Moment} (ht : Told Moment.text .script text moments) :
    (final merge s moments).raw = last Moment.text text moments ↔
      (Steady text moments ∧ s.raw = text) ∨ Caught merge s moments := by
  induction moments generalizing text s with
  | nil =>
    show s.raw = text ↔ _
    simp [Steady, Caught]
  | cons x rest ih =>
    obtain ⟨hnow, hlater⟩ := ht
    have hsteady : Steady text (x :: rest) ↔ x.text = text ∧ Steady text rest := List.forall_mem_cons
    show (final merge (next merge s x) rest).raw = last Moment.text x.text rest ↔ _
    rw [ih hlater, caught_cons_iff, raw_next_iff, hsteady]
    by_cases hcaught : Caught merge (next merge s x) rest
    · simp [hcaught]
    · simp only [hcaught, or_false]
      constructor
      · rintro ⟨hrest, ⟨htold, ha⟩ | ⟨hne, hraw⟩⟩
        · exact .inr ⟨htold, ha, hrest⟩
        · -- if the text had changed just now, that would be told later, and be absorbed
          have hsame : x.text = text := by
            refine Classical.byContradiction fun hchange => ?_
            obtain ⟨y, hy, hyt⟩ := hnow hchange
            rcases List.mem_cons.1 hy with rfl | hy
            · exact hne hyt
            · exact hcaught (caught_of_steady hrest ((raw_next_of_ne_script hne).trans hraw) ⟨y, hy, hyt⟩)
          exact .inl ⟨⟨hsame, hsame ▸ hrest⟩, hraw.trans hsame⟩
      · rintro (⟨⟨hsame, hrest⟩, hraw⟩ | ⟨htold, ha, hrest⟩)
        · refine ⟨hsame ▸ hrest, ?_⟩
          by_cases htold : x.told = some .script
          · rw [absorb_of_raw htold (hraw.trans hsame.symm)]
            exact .inl ⟨htold, rfl⟩
          · exact .inr ⟨htold, hraw.trans hsame.symm⟩
        · exact ⟨hrest, .inl ⟨htold, ha⟩⟩

/-! ### What has been made of it -/

/-- What has been made of the text that has been read is what the declarations make of it, if they go with it. -/
def InStep (merge : Merge) (declarations : Option Content) (s : Texts) : Prop :=
  ∀ content, merge s.raw declarations = some content → s.content = content

/-- Something leads to another merge: the declarations are told of, or a text that has not been read is absorbed. -/
def Merges (merge : Merge) (x : Moment) (s : Texts) : Prop :=
  x.told = some .declarations ∨ (x.told = some .script ∧ x.text ≠ s.raw ∧ (absorb merge x s).isSome)

/-- What has been merged is in step with the declarations with which it has been merged. -/
private theorem inStep_next (h : Merges merge x s) : InStep merge x.declarations (next merge s x) := by
  unfold next
  rcases h with ht | ⟨ht, hraw, ha⟩
  · rw [absorb_of_declarations ht]
    cases hm : merge s.raw x.declarations with
    | none => exact fun content hm' => absurd (hm.symm.trans hm') nofun
    | some content => exact fun content' hm' => Option.some.inj (hm.symm.trans hm')
  · rw [absorb_of_news ht hraw] at ha ⊢
    cases hm : merge x.text x.declarations with
    | none =>
      rw [hm] at ha
      cases ha
    | some content => exact fun content' hm' => Option.some.inj (hm.symm.trans hm')

private theorem next_of_not_merges (h : ¬ Merges merge x s) : next merge s x = s := by
  unfold Merges at h
  unfold next
  cases ht : x.told with
  | none => rw [absorb, ht]; rfl
  | some w =>
    cases w with
    | declarations => exact absurd (.inl ht) h
    | script =>
      by_cases hraw : s.raw = x.text
      · rw [absorb_of_raw ht hraw]
        rfl
      · have hnone : absorb merge x s = none := by
          cases ha : absorb merge x s with
          | none => rfl
          | some s' => exact absurd (.inr ⟨ht, Ne.symm hraw, by rw [ha]; rfl⟩) h
        rw [hnone]
        rfl

/-- At some time there is another merge. -/
def Remerged (merge : Merge) (s : Texts) (moments : List Moment) : Prop :=
  ∃ before x after, moments = before ++ x :: after ∧ Merges merge x (final merge s before)

private theorem remerged_cons_iff {rest : List Moment} :
    Remerged merge s (x :: rest) ↔ Merges merge x s ∨ Remerged merge (next merge s x) rest := by
  constructor
  · rintro ⟨before, y, after, heq, hmerges⟩
    cases before with
    | nil =>
      obtain ⟨rfl, rfl⟩ := List.cons.inj heq
      exact .inl hmerges
    | cons z before =>
      obtain ⟨rfl, rfl⟩ := List.cons.inj heq
      exact .inr ⟨before, y, after, rfl, hmerges⟩
  · rintro (hmerges | ⟨before, y, after, rfl, hmerges⟩)
    · exact ⟨[], x, rest, rfl, hmerges⟩
    · exact ⟨x :: before, y, after, rfl, hmerges⟩

private theorem remerged_of_told {moments : List Moment} (h : ∃ y ∈ moments, y.told = some .declarations) :
    Remerged merge s moments := by
  obtain ⟨y, hy, ht⟩ := h
  obtain ⟨before, after, rfl⟩ := List.append_of_mem hy
  exact ⟨before, y, after, rfl, .inl ht⟩

/-- What has been made in the end is in step with the declarations if and only if it was so in the beginning or there
was another merge. -/
theorem inStep_final_iff {declarations : Option Content} {moments : List Moment}
    (ht : Told Moment.declarations .declarations declarations moments) :
    InStep merge (last Moment.declarations declarations moments) (final merge s moments) ↔
      InStep merge declarations s ∨ Remerged merge s moments := by
  induction moments generalizing declarations s with
  | nil =>
    show InStep merge declarations s ↔ _
    simp [Remerged]
  | cons x rest ih =>
    obtain ⟨hnow, hlater⟩ := ht
    show InStep merge (last Moment.declarations x.declarations rest) (final merge (next merge s x) rest) ↔ _
    rw [ih hlater, remerged_cons_iff]
    by_cases hmerges : Merges merge x s
    · simp [hmerges, inStep_next hmerges]
    · by_cases hrest : Remerged merge (next merge s x) rest
      · simp [hrest]
      · -- nothing is told of the declarations any more, so they are as before
        have hnone : ¬ ∃ y ∈ x :: rest, y.told = some .declarations := by
          rintro ⟨y, hy, hyt⟩
          rcases List.mem_cons.1 hy with rfl | hy
          · exact hmerges (.inl hyt)
          · exact hrest (remerged_of_told ⟨y, hy, hyt⟩)
        have hsame : x.declarations = declarations :=
          Classical.byContradiction fun hchange => hnone (hnow hchange)
        simp [hmerges, next_of_not_merges hmerges, hsame]

/-! ### Both -/

/-- Let every change of either file be told of later, and let the two go together in the end.  In the end, both texts
are those of the files if and only if the text was right from the beginning and stayed the same, or what was told of it
after its last change was absorbed, and what was made of it was in step with the declarations in the beginning, or there
was another merge. -/
theorem converges_iff {text content : String} {declarations : Option Content} {moments : List Moment}
    (htext : Told Moment.text .script text moments)
    (hdeclarations : Told Moment.declarations .declarations declarations moments)
    (hmerge : merge (last Moment.text text moments) (last Moment.declarations declarations moments) = some content) :
    final merge s moments = ⟨last Moment.text text moments, content⟩ ↔
      ((Steady text moments ∧ s.raw = text) ∨ Caught merge s moments) ∧
        (InStep merge declarations s ∨ Remerged merge s moments) := by
  rw [← raw_final_iff htext, ← inStep_final_iff hdeclarations]
  generalize final merge s moments = s'
  constructor
  · rintro rfl
    exact ⟨rfl, fun content' hm => Option.some.inj (hmerge.symm.trans hm)⟩
  · rintro ⟨hraw, hstep⟩
    rw [← hraw] at hmerge ⊢
    rw [← hstep content hmerge]

end ScriptHost.Pair
