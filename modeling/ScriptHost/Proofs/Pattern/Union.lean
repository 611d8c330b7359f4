import Mathlib.Data.List.Induction
import Mathlib.Tactic.Tauto
import ScriptHost.Exclusion
import ScriptHost.Proofs.Pattern.Machine

/-!
# What a set of patterns excludes

Globs are kept twice, one by one and in the machine that was made of all of them, and the two stay in step
(`Exclusions.InStep`), whichever pattern is refused and for whichever reason.  As long as machines are made that match
what one of their globs matches (`Glob.Faithful`), a set of patterns excludes what one of its patterns excludes.  What
one addition does is said once (`Exclusions.added_of_tryAdd`), and so after patterns have been added one after the
other, of which some may have been refused, the set is the union of those that have been added
(`Exclusions.excludes_afterAll`).
-/

namespace ScriptHost

open ScriptHost.Pattern

/-! ### Patterns -/

/-- The machines that are made of globs match what one of the globs matches. -/
def Glob.Faithful (build : Builder) : Prop :=
  ∀ {globs matcher}, build globs = .ok matcher →
    ∀ text, matcher.matchesAll text = globs.any fun e => e.program.matchesAll text

theorem Glob.faithful_together : Faithful together := by
  rintro globs _ ⟨⟩ text
  exact Expr.matchesAll_alts globs text

/-- A pattern that excludes paths. -/
inductive Exclusion where
  | regex (p : Program Char)
  | glob (e : Expr UInt8)

/-- Whether a pattern alone matches a path. -/
def Exclusion.excludes (e : Exclusion) (path : String) : Bool :=
  match e with
  | regex p => p.matchesPart path.toList
  | glob e => e.program.matchesAll path.toUTF8.toList

/-- A pattern as it is written by who adds it. -/
inductive Written where
  | regex (pattern : String)
  | glob (pattern : String)

/-- The pattern that is written, if it can be read. -/
def Written.read : Written → Except Config.Error Exclusion
  | regex pattern => (Exclusion.ofRegex pattern).map .regex
  | glob pattern => (Exclusion.ofGlob pattern).map .glob

namespace Exclusions

variable {s s' : Exclusions} {w : Written} {e : Exclusion} {path : String}

/-! ### Additions -/

/-- Adds a pattern that is written, or says why that cannot be done. -/
def tryAdd (s : Exclusions) : Written → Except Config.Error Exclusions
  | .regex pattern => s.addRegex pattern
  | .glob pattern => s.addGlob pattern

/-- The machine is that of the globs, and there is none if there are no globs. -/
def InStep (s : Exclusions) : Prop :=
  s.globs = [] ∧ s.matcher = none ∨ ∃ matcher, s.build s.globs = .ok matcher ∧ s.matcher = some matcher

/-- Nothing stands against adding a pattern that has been read: if it is a glob, a machine can be made. -/
def Admits (s : Exclusions) : Exclusion → Prop
  | .regex _ => True
  | .glob e => ∃ matcher, s.build (s.globs ++ [e]) = .ok matcher

/-- The machine of `s'` is made as that of `s` is, and it is in step if that one is. -/
structure KeepsStep (s s' : Exclusions) : Prop where
  build : s'.build = s.build
  inStep : s.InStep → s'.InStep

/-- The patterns `s'` are those of `s` and one more. -/
structure Added (s : Exclusions) (e : Exclusion) (s' : Exclusions) : Prop extends KeepsStep s s' where
  size : s'.size = s.size + 1
  excludes : Glob.Faithful s.build → s.InStep → ∀ path, s'.excludes path = (s.excludes path || e.excludes path)

theorem KeepsStep.refl (s : Exclusions) : s.KeepsStep s := ⟨rfl, id⟩

theorem KeepsStep.trans {s₁ s₂ s₃ : Exclusions} (h : s₁.KeepsStep s₂) (h' : s₂.KeepsStep s₃) : s₁.KeepsStep s₃ :=
  ⟨h'.build.trans h.build, fun hs => h'.inStep (h.inStep hs)⟩

private theorem any_matcher (hbuild : Glob.Faithful s.build) (hs : s.InStep) (text : List UInt8) :
    s.matcher.any (·.matchesAll text) = s.globs.any fun e => e.program.matchesAll text := by
  rcases hs with ⟨hglobs, hmatcher⟩ | ⟨matcher, hglobs, hmatcher⟩
  · rw [hmatcher, hglobs]
    rfl
  · rw [hmatcher, Option.any_some, hbuild hglobs]

private theorem added_addProgram (s : Exclusions) (p : Program Char) : s.Added (.regex p) (s.addProgram p) where
  build := rfl
  inStep hs := hs
  size := by
    simp only [addProgram, Exclusions.size, List.length_append, List.length_singleton]
    omega
  excludes _ _ path := by
    simp only [addProgram, Exclusions.excludes, Exclusion.excludes, List.any_append, List.any_cons, List.any_nil,
      Bool.or_false]
    exact Bool.or_right_comm ..

private theorem added_glob {glob : Expr UInt8} {matcher : Program UInt8}
    (h : s.build (s.globs ++ [glob]) = .ok matcher) :
    s.Added (.glob glob) { s with globs := s.globs ++ [glob], matcher := some matcher } where
  build := rfl
  inStep _ := .inr ⟨matcher, h, rfl⟩
  size := by
    simp only [Exclusions.size, List.length_append, List.length_singleton]
    omega
  excludes hbuild hs path := by
    simp only [Exclusions.excludes, Exclusion.excludes, Option.any_some, any_matcher hbuild hs, hbuild h,
      List.any_append, List.any_cons, List.any_nil, Bool.or_false, Bool.or_assoc]

/-- A pattern is added if and only if it can be read and, if it is a glob, a machine can be made. -/
private theorem tryAdd_eq_ok_iff : s.tryAdd w = .ok s' ↔
    (∃ p, w.read = .ok (.regex p) ∧ s' = s.addProgram p) ∨
      ∃ glob matcher, w.read = .ok (.glob glob) ∧ s.build (s.globs ++ [glob]) = .ok matcher ∧
        s' = { s with globs := s.globs ++ [glob], matcher := some matcher } := by
  cases w with
  | regex pattern =>
    have hadd : s.tryAdd (.regex pattern) = (Exclusion.ofRegex pattern).map s.addProgram := rfl
    rw [hadd, Written.read]
    cases Exclusion.ofRegex pattern with
    | error cause => simp [Except.map]
    | ok p => simp [Except.map, eq_comm]
  | glob pattern =>
    have hadd : s.tryAdd (.glob pattern) = (Exclusion.ofGlob pattern).bind fun glob =>
        ((s.build (s.globs ++ [glob])).mapError (.unbuiltGlobs pattern)).map fun matcher =>
          { s with globs := s.globs ++ [glob], matcher := some matcher } := rfl
    rw [hadd, Written.read]
    cases Exclusion.ofGlob pattern with
    | error cause => simp [Except.bind, Except.map]
    | ok glob =>
      cases hbuild : s.build (s.globs ++ [glob]) with
      | error reason => simp [Except.bind, Except.map, Except.mapError, hbuild]
      | ok matcher => simp [Except.bind, Except.map, Except.mapError, hbuild, eq_comm]

/-- If a pattern is added, it can be read, and it is one more. -/
theorem added_of_tryAdd (h : s.tryAdd w = .ok s') : ∃ e, w.read = .ok e ∧ s.Added e s' := by
  rcases tryAdd_eq_ok_iff.1 h with ⟨p, hread, rfl⟩ | ⟨glob, matcher, hread, hbuild, rfl⟩
  · exact ⟨_, hread, added_addProgram s p⟩
  · exact ⟨_, hread, added_glob hbuild⟩

/-- A pattern is added if and only if it can be read and nothing stands against it. -/
private theorem exists_tryAdd_iff : (∃ s', s.tryAdd w = .ok s') ↔ ∃ e, w.read = .ok e ∧ s.Admits e := by
  simp only [tryAdd_eq_ok_iff]
  constructor
  · rintro ⟨s', ⟨p, hread, -⟩ | ⟨glob, matcher, hread, hbuild, -⟩⟩
    · exact ⟨_, hread, trivial⟩
    · exact ⟨_, hread, matcher, hbuild⟩
  · rintro ⟨p | glob, hread, hadmits⟩
    · exact ⟨_, .inl ⟨p, hread, rfl⟩⟩
    · obtain ⟨matcher, hbuild⟩ := hadmits
      exact ⟨_, .inr ⟨glob, matcher, hread, hbuild, rfl⟩⟩

theorem keepsStep_addRegex {pattern : String} (h : s.addRegex pattern = .ok s') : s.KeepsStep s' := by
  obtain ⟨e, -, hadd⟩ := added_of_tryAdd (w := .regex pattern) h
  exact hadd.toKeepsStep

theorem keepsStep_addGlob {pattern : String} (h : s.addGlob pattern = .ok s') : s.KeepsStep s' := by
  obtain ⟨e, -, hadd⟩ := added_of_tryAdd (w := .glob pattern) h
  exact hadd.toKeepsStep

theorem keepsStep_foldl_addProgram (s : Exclusions) (patterns : List (Program Char)) :
    s.KeepsStep (patterns.foldl addProgram s) := by
  induction patterns generalizing s with
  | nil => exact .refl s
  | cons p rest ih => exact (added_addProgram s p).toKeepsStep.trans (ih _)

/-! ### Additions one after the other -/

/-- The patterns after another one has been added or refused. -/
def next (s : Exclusions) (w : Written) : Exclusions :=
  match s.tryAdd w with
  | .ok s' => s'
  | .error _ => s

/-- The patterns after all of several have been added or refused, one after the other. -/
def afterAll (build : Glob.Builder) (written : List Written) : Exclusions := written.foldl next (emptyWith build)

/-- One of several patterns has been added when its turn came. -/
def Accepted (build : Glob.Builder) (written : List Written) (e : Exclusion) : Prop :=
  ∃ before w later s', written = before ++ w :: later ∧ (afterAll build before).tryAdd w = .ok s' ∧ w.read = .ok e

section

variable {build : Glob.Builder} {written : List Written}

/-- A pattern that is refused changes nothing. -/
private theorem next_of_error {cause : Config.Error} (h : s.tryAdd w = .error cause) : s.next w = s := by
  rw [next, h]

private theorem next_of_ok (h : s.tryAdd w = .ok s') : s.next w = s' := by
  rw [next, h]

private theorem afterAll_concat (written : List Written) (w : Written) :
    afterAll build (written ++ [w]) = (afterAll build written).next w := List.foldl_append ..

/-- What one addition keeps, whether it is refused or not, holds after all additions. -/
private theorem afterAll_keeps {P : Exclusions → Prop} (hempty : P (emptyWith build))
    (hadded : ∀ {s e s'}, P s → s.Added e s' → P s') (written : List Written) : P (afterAll build written) := by
  induction written using List.reverseRecOn with
  | nil => exact hempty
  | append_singleton written w ih =>
    rw [afterAll_concat]
    cases h : (afterAll build written).tryAdd w with
    | error cause => rwa [next_of_error h]
    | ok s' =>
      obtain ⟨e, -, hadd⟩ := added_of_tryAdd h
      rw [next_of_ok h]
      exact hadded ih hadd

private theorem build_afterAll (written : List Written) : (afterAll build written).build = build :=
  afterAll_keeps (P := fun s => s.build = build) rfl (fun hs hadd => hadd.build.trans hs) written

/-- The machine stays in step with the globs. -/
private theorem inStep_afterAll (written : List Written) : (afterAll build written).InStep :=
  afterAll_keeps (.inl ⟨rfl, rfl⟩) (fun hs hadd => hadd.inStep hs) written

/-- What has been added is what had been added before, and the last pattern if it has not been refused. -/
private theorem accepted_concat_iff : Accepted build (written ++ [w]) e ↔
    Accepted build written e ∨ (∃ s', (afterAll build written).tryAdd w = .ok s') ∧ w.read = .ok e := by
  constructor
  · rintro ⟨before, w', later, s', heq, hadd, hread⟩
    rcases List.eq_nil_or_concat later with rfl | ⟨later, last, rfl⟩
    · obtain ⟨rfl, hlast⟩ := List.append_inj' heq rfl
      obtain rfl : w = w' := List.singleton_inj.1 hlast
      exact .inr ⟨⟨s', hadd⟩, hread⟩
    · have hsplit : written ++ [w] = (before ++ w' :: later) ++ [last] := by
        rw [heq, List.concat_eq_append, List.append_assoc, List.cons_append]
      obtain ⟨rfl, -⟩ := List.append_inj' hsplit rfl
      exact .inl ⟨before, w', later, s', rfl, hadd, hread⟩
  · rintro (⟨before, w', later, s', rfl, hadd, hread⟩ | ⟨⟨s', hadd⟩, hread⟩)
    · exact ⟨before, w', later ++ [w], s', by rw [List.append_assoc, List.cons_append], hadd, hread⟩
    · exact ⟨written, w, [], s', rfl, hadd, hread⟩

/-- A path is excluded if and only if a pattern that has been added matches it. -/
private theorem excludes_afterAll_iff (hbuild : Glob.Faithful build) :
    (afterAll build written).excludes path = true ↔ ∃ e, Accepted build written e ∧ e.excludes path = true := by
  induction written using List.reverseRecOn with
  | nil =>
    constructor
    · exact fun h => absurd h Bool.false_ne_true
    · rintro ⟨e, ⟨before, w, later, s', heq, -⟩, -⟩
      simp at heq
  | append_singleton written w ih =>
    simp only [accepted_concat_iff, or_and_right, exists_or, ← ih, afterAll_concat]
    cases h : (afterAll build written).tryAdd w with
    | error cause => simp [next_of_error h]
    | ok s' =>
      obtain ⟨e, hread, hadd⟩ := added_of_tryAdd h
      have hfaithful : Glob.Faithful (afterAll build written).build := by rwa [build_afterAll]
      rw [next_of_ok h, hadd.excludes hfaithful (inStep_afterAll written), Bool.or_eq_true, hread]
      simp

/-- If machines of any size are made, whatever can be read is added. -/
private theorem accepted_together_iff : Accepted Glob.together written e ↔ ∃ w ∈ written, w.read = .ok e := by
  constructor
  · rintro ⟨before, w, later, s', rfl, -, hread⟩
    exact ⟨w, List.mem_append_right _ (List.mem_cons_self ..), hread⟩
  · rintro ⟨w, hw, hread⟩
    obtain ⟨before, later, rfl⟩ := List.append_of_mem hw
    have hadmits : (afterAll Glob.together before).Admits e := by
      cases e with
      | regex p => trivial
      | glob glob =>
        unfold Admits
        rw [build_afterAll]
        exact ⟨_, rfl⟩
    obtain ⟨s', hadd⟩ := exists_tryAdd_iff.2 ⟨e, hread, hadmits⟩
    exact ⟨before, w, later, s', rfl, hadd, hread⟩

end

/-- Let patterns be added one after the other, of which some may be refused.  A path is excluded if and only if one that
has been added matches it alone.  A pattern is added if and only if it can be read and, if it is a glob, a machine can
be made for it and the globs before it; otherwise nothing changes, neither the number of patterns nor any answer.  So
the answers depend only on which patterns have been added, and what is excluded once stays so.  All the while the machine
is in step with the globs. -/
theorem excludes_afterAll {build : Glob.Builder} (hbuild : Glob.Faithful build) (written : List Written) :
    (∀ path, (afterAll build written).excludes path = true ↔
      ∃ e, Accepted build written e ∧ e.excludes path = true) ∧
    (∀ w, (∃ s', (afterAll build written).tryAdd w = .ok s') ↔
      ∃ e, w.read = .ok e ∧ (afterAll build written).Admits e) ∧
    (∀ w cause, (afterAll build written).tryAdd w = .error cause →
      (afterAll build (written ++ [w])).size = (afterAll build written).size ∧
        ∀ path, (afterAll build (written ++ [w])).excludes path = (afterAll build written).excludes path) ∧
    (∀ others : List Written, (∀ e, Accepted build written e ↔ Accepted build others e) →
      ∀ path, (afterAll build written).excludes path = (afterAll build others).excludes path) ∧
    (∀ later path, (afterAll build written).excludes path = true →
      (afterAll build (written ++ later)).excludes path = true) ∧
    (afterAll build written).InStep := by
  refine ⟨fun path => excludes_afterAll_iff hbuild, fun w => exists_tryAdd_iff, fun w cause hrefused => ?_,
    fun others hsame path => ?_, fun later path hpath => ?_, inStep_afterAll written⟩
  · rw [afterAll_concat, next_of_error hrefused]
    exact ⟨rfl, fun _ => rfl⟩
  · rw [Bool.eq_iff_iff, excludes_afterAll_iff hbuild, excludes_afterAll_iff hbuild]
    simp only [hsame]
  · obtain ⟨e, ⟨before, w, behind, s', rfl, hadd, hread⟩, he⟩ := (excludes_afterAll_iff hbuild).1 hpath
    refine (excludes_afterAll_iff hbuild).2 ⟨e, ⟨before, w, behind ++ later, s', ?_, hadd, hread⟩, he⟩
    rw [List.append_assoc, List.cons_append]

/-- Two globs are looked for together after a third one has been refused, in whichever order they come and however
often. -/
theorem excludes_afterAll_of_refused : Glob.Faithful Glob.together ∧
    (afterAll Glob.together [.glob "*.spec.ts", .regex "lib", .glob "["]).size = 2 ∧
      (afterAll Glob.together [.glob "*.spec.ts", .regex "lib", .glob "["]).excludes "/a.spec.ts" = true ∧
      (afterAll Glob.together [.regex "lib", .glob "*.spec.ts", .regex "lib"]).excludes "/a.spec.ts" = true ∧
      (afterAll Glob.together [.glob "*.spec.ts", .regex "lib", .glob "*.d.ts"]).excludes "/a.spec.ts" = true := by
  have hrefused : ((afterAll Glob.together [.glob "*.spec.ts", .regex "lib"]).tryAdd (.glob "[")).toOption.isSome =
      false := by decide +kernel
  have hexcluded : (afterAll Glob.together [.glob "*.spec.ts", .regex "lib"]).excludes "/a.spec.ts" = true := by
    decide +kernel
  have hsize : (afterAll Glob.together [.glob "*.spec.ts", .regex "lib"]).size = 2 := by decide +kernel
  obtain ⟨-, -, hunchanged, hsame, hlater, -⟩ :=
    excludes_afterAll Glob.faithful_together [.glob "*.spec.ts", .regex "lib"]
  have hthird : (afterAll Glob.together [.glob "*.spec.ts", .regex "lib", .glob "["]).size = 2 ∧
      (afterAll Glob.together [.glob "*.spec.ts", .regex "lib", .glob "["]).excludes "/a.spec.ts" = true := by
    cases hadd : (afterAll Glob.together [.glob "*.spec.ts", .regex "lib"]).tryAdd (.glob "[") with
    | ok s' => rw [hadd] at hrefused; cases hrefused
    | error cause =>
      obtain ⟨hsize', hpaths⟩ := hunchanged _ _ hadd
      exact ⟨hsize'.trans hsize, (hpaths _).trans hexcluded⟩
  have hrepeated : (afterAll Glob.together [.regex "lib", .glob "*.spec.ts", .regex "lib"]).excludes "/a.spec.ts" =
      true := by
    refine (hsame _ (fun e => ?_) _).symm.trans hexcluded
    simp only [accepted_together_iff, List.mem_cons, List.not_mem_nil, or_false, exists_eq_or_imp, exists_eq_left]
    tauto
  exact ⟨Glob.faithful_together, hthird.1, hthird.2, hrepeated, hlater [.glob "*.d.ts"] _ hexcluded⟩

end Exclusions

end ScriptHost
