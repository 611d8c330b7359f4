import ScriptHost.Proofs.Host.Merge

/-!
# Observations that are kept

An observation says whether the text that was seen was news to the store then.  When it is added, that is believed,
however much has happened since.  So it is added faithfully, its text being stored if and only if that is another one
than before, exactly as long as it would still say the same (`addObserved_faithful_iff`).  If the text has been stored
meanwhile, it is stored once more under another version; if another text has been stored meanwhile, it is lost.
-/

namespace ScriptHost.Host

open ScriptHost.Analysis ScriptHost.Path

variable {σ : Type} {d : Disk}

/-! ### News -/

private theorem needsUpdate_of_observe {path : String} {origin given : Option String} {h h₁ : Host σ} {o : Observation}
    (ho : observe path origin given d h = (.ok o, h₁)) : o.needsUpdate = h.store.needsUpdate o.path o.raw := by
  obtain ⟨i, h₂, hi, ho⟩ := Action.bind_eq_ok.1 ho
  obtain ⟨-, -, hid, hnews⟩ := observeIdentity_eq_ok.1 ho
  have hstore : h₂.store = h.store := (congrArg (fun x => x.2.store) hi).symm
  rw [hnews, hstore, Observation.path, hid]

theorem record?_of_added {o : Observation} {h h' : Host σ} {withImports : Bool} {u : SourceUnit}
    (hn : o.needsUpdate = true) (hadd : addObserved o withImports d h = (.ok u, h')) :
    ∃ content, o.record? d h = some ⟨h.store.nextVersion o.path, content, o.raw⟩ := by
  obtain ⟨stored, h₁, hcommit, -⟩ := Action.bind_eq_ok.1 hadd
  unfold commit at hcommit
  rw [hn, Bool.not_true, if_neg (by decide)] at hcommit
  obtain ⟨content, h₂, hcontent, -⟩ := Action.bind_eq_ok.1 hcommit
  exact ⟨content, record?_eq_some_iff.2 ⟨hn, content, congrArg Prod.fst hcontent, rfl⟩⟩

/-! ### Adding what was observed before -/

/-- Between two states of a store, an observation has been added as it should be: its text is stored, and under another
version if and only if another text, or none, was stored before. -/
structure Faithful (o : Observation) (before after : Store) : Prop where
  stored : (after.get? o.path).map (·.rawContent) = some o.raw
  moved_iff : after.version o.path ≠ before.version o.path ↔
    (before.get? o.path).map (·.rawContent) ≠ some o.raw

/-- Let something be observed in a host, whatever happen later, and let the observation be added then, without an error.
It is added faithfully if and only if its text is news at that time exactly if it was when it was observed. -/
theorem addObserved_faithful_iff {h₀ : Host σ} (hr : h₀.Reachable) {path : String} {origin given : Option String}
    {d₀ : Disk} {o : Observation} {h₁ : Host σ} (ho : observe path origin given d₀ h₀ = (.ok o, h₁))
    (later : List (Disk × Operation)) {withImports : Bool} {d : Disk} {u : SourceUnit} {h' : Host σ}
    (hadd : addObserved o withImports d (h₁.after later) = (.ok u, h')) :
    Faithful o (h₁.after later).store h'.store ↔
      (h₁.after later).store.needsUpdate o.path o.raw = h₀.store.needsUpdate o.path o.raw := by
  have hwf : o.identity.WellFormed := wellFormed_of_observe hr.sound ho
  have hm₁ : h₁.memo.Sound := by
    have hq := observe_quiet path origin given d₀ h₀
    rw [ho] at hq
    exact hq.sound hr.sound
  have hown := addObserved_own_record (d := d) hwf (sound_after hm₁ later) withImports
  rw [hadd] at hown
  change h'.store.get? o.path = _ at hown
  rw [← needsUpdate_of_observe ho]
  generalize h₁.after later = h at *
  cases hn : o.needsUpdate with
  | false =>
    -- nothing is stored, so the text must be there already
    rw [record?_of_not_news hn, Option.none_or] at hown
    rw [needsUpdate_eq_false_iff, ← hown]
    refine ⟨Faithful.stored, fun hstored => ⟨hstored, ?_⟩⟩
    rw [← hown, Store.version, Store.version, hown]
    simp [← hown, hstored]
  | true =>
    -- the text is stored in any case, so there must be another one before
    obtain ⟨content, hrecord⟩ := record?_of_added hn hadd
    rw [hrecord, Option.some_or] at hown
    have hmoved : h'.store.version o.path ≠ h.store.version o.path := by
      have hv : h'.store.version o.path = h.store.nextVersion o.path := by rw [Store.version, hown]; rfl
      rw [hv]
      exact nextVersion_ne_version h.store o.path
    have hnews : h.store.needsUpdate o.path o.raw = true ↔ (h.store.get? o.path).map (·.rawContent) ≠ some o.raw := by
      rw [Ne, ← needsUpdate_eq_false_iff, Bool.not_eq_false]
    rw [hnews]
    refine ⟨fun hf => hf.moved_iff.1 hmoved, fun hother => ⟨?_, fun _ => hother, fun _ => hmoved⟩⟩
    rw [hown]
    rfl

/-- Observed while nothing was tracked and added after the same text has been, a text is stored a second time; observed
while it was stored and added after another text has been, it is lost. -/
theorem addObserved_faithful_iff_of_stale : ∃ (d : Disk) (o o' : Observation) (h h' : Host SyntaxEngine),
    o.path = "/r/a.ts" ∧ o.raw = "1" ∧ o'.path = "/r/a.ts" ∧ o'.raw = "1" ∧
    h.store.get? "/r/a.ts" = some ⟨1, "1", "1"⟩ ∧
    (addObserved o false d h).2.store.get? "/r/a.ts" = some ⟨2, "1", "1"⟩ ∧
    ¬ Faithful o h.store (addObserved o false d h).2.store ∧
    h'.store.get? "/r/a.ts" = some ⟨2, "2", "2"⟩ ∧
    (addObserved o' false d h').2.store.get? "/r/a.ts" = some ⟨2, "2", "2"⟩ ∧
    ¬ Faithful o' h'.store (addObserved o' false d h').2.store := by
  let d := Disk.empty.write "/r/a.ts" (.text "1")
  let start := fresh ⟨Resolution.nodeResolver, Merge.typePrelude, SyntaxEngine.engine⟩ SyntaxEngine.fresh "/r"
  let add : List (Disk × Operation) := [(d, .addFile { path := "/r/a.ts" })]
  let change : List (Disk × Operation) := [(d, .addFile { path := "/r/a.ts", content := some "2" })]
  let o : Observation := ⟨.ofResolved "/r/a.ts", "1", true⟩
  let o' : Observation := ⟨.ofResolved "/r/a.ts", "1", false⟩
  -- the text is observed before it is stored, and after
  have hempty : start.Reachable := (unused_fresh ..).reachable
  have hadded : (start.after add).Reachable := ⟨start, add, unused_fresh .., rfl⟩
  have ho : (observe "/r/a.ts" none none d start).1 = .ok o := by decide +kernel
  have ho' : (observe "/r/a.ts" none none d (start.after add)).1 = .ok o' := by decide +kernel
  let h := (observe "/r/a.ts" none none d start).2.after add
  let h' := (observe "/r/a.ts" none none d (start.after add)).2.after change
  have hunit : (addObserved o false d h).1.toOption.isSome = true := by decide +kernel
  have hunit' : (addObserved o' false d h').1.toOption.isSome = true := by decide +kernel
  obtain ⟨u, hu⟩ := Option.isSome_iff_exists.1 hunit
  obtain ⟨u', hu'⟩ := Option.isSome_iff_exists.1 hunit'
  have hiff : Faithful o h.store (addObserved o false d h).2.store ↔
      h.store.needsUpdate o.path o.raw = start.store.needsUpdate o.path o.raw :=
    addObserved_faithful_iff hempty (Action.run_of_answer ho) add (Action.run_of_answer (toOption_eq_some_iff.1 hu))
  have hiff' : Faithful o' h'.store (addObserved o' false d h').2.store ↔
      h'.store.needsUpdate o'.path o'.raw = (start.after add).store.needsUpdate o'.path o'.raw :=
    addObserved_faithful_iff hadded (Action.run_of_answer ho') change
      (Action.run_of_answer (toOption_eq_some_iff.1 hu'))
  have hstored : h.store.get? "/r/a.ts" = some ⟨1, "1", "1"⟩ := by decide +kernel
  have hstored' : h'.store.get? "/r/a.ts" = some ⟨2, "2", "2"⟩ := by decide +kernel
  have hold : ¬ h.store.needsUpdate o.path o.raw = start.store.needsUpdate o.path o.raw := by decide +kernel
  have hnews : ¬ h'.store.needsUpdate o'.path o'.raw = (start.after add).store.needsUpdate o'.path o'.raw := by
    decide +kernel
  have htwice : (addObserved o false d h).2.store.get? "/r/a.ts" = some ⟨2, "1", "1"⟩ := by decide +kernel
  have hlost : (addObserved o' false d h').2.store.get? "/r/a.ts" = some ⟨2, "2", "2"⟩ := by decide +kernel
  have hpath : (Identity.ofResolved "/r/a.ts").normalized = "/r/a.ts" := by decide +kernel
  exact ⟨d, o, o', h, h', hpath, rfl, hpath, rfl, hstored, htwice, mt hiff.1 hold, hstored', hlost, mt hiff'.1 hnews⟩

end ScriptHost.Host
