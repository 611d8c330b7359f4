import ScriptHost.Proofs.Analysis.Occurrences
import ScriptHost.Proofs.Host.Incremental

/-!
# References in a host

When a host that uses the syntax engine is asked where a name stands, it finds all places in all tracked scripts, each
once and in a fixed order; and asked again at any of them it finds the same (`references_complete`).  The engine may
have read the scripts at any time before: what it gives are the scripts that are stored now (`UpToDate.given_eq`).
-/

namespace ScriptHost.Host

open ScriptHost.Analysis ScriptHost.Analysis.SyntaxEngine ScriptHost.Syntax ScriptHost.Text

/-- The scripts that are read from a store. -/
def storedScripts (store : Store) (key : String) : Option ParsedScript := (store.get? key).map (Record.parsed key)

theorem UpToDate.given_eq {n : Nat} {h : Host SyntaxEngine} (hu : UpToDate n h) :
    given (viewOf h.store) h.engineState = storedScripts h.store := by
  funext key
  rw [given, ensure_answer hu.consistent, script?_viewOf hu.numbered, storedScripts]

/-- Where a name stands in scripts, in their order. -/
def occurrences (store : Store) (name : String) (keys : List String) : List (String × Span) :=
  keys.flatMap fun key =>
    ((store.get? key).map fun record => (placesIn key record.content name).map (key, ·)).getD []

/-- The references to a name, as they are found from the script with a key, are all places where the name stands in a
tracked script, each once.  Those in the script itself come first, then those in the other scripts, which are sorted,
and in each script they are in the order of the text. -/
structure CompleteReferences (store : Store) (key name : String) (references : List Reference) : Prop where
  tracked : key ∈ store.paths
  places : references.map (fun r => (r.fileName, r.span)) =
    occurrences store name (key :: store.paths.filter (· != key))
  sorted : (store.paths.filter (· != key)).Pairwise (· < ·)
  inOrder : references.Pairwise fun r r' => r.fileName = r'.fileName → r.span.stop ≤ r'.span.start
  once : (references.map fun r => (r.fileName, r.span)).Nodup

section

variable {store : Store} {key file name : String} {r : Reference}

private theorem searchOrder_perm (hkey : key ∈ store.paths) : (searchOrder (viewOf store) key).Perm store.paths := by
  have herase : store.paths.filter (· != key) = store.paths.erase key := (store.nodup_paths.erase_eq_filter key).symm
  show (key :: store.paths.filter (· != key)).Perm store.paths
  rw [herase]
  exact (List.perm_cons_erase hkey).symm

/-- The scripts that are searched are those that are stored. -/
private theorem mem_searched_iff {first : String} {script : ParsedScript} :
    (file, script) ∈ searched (viewOf store) (storedScripts store) first ↔
      file ∈ searchOrder (viewOf store) first ∧ ∃ record, store.get? file = some record ∧
        Record.parsed file record = script := by
  rw [searched, List.mem_filterMap]
  constructor
  · rintro ⟨name, hname, hscript⟩
    obtain ⟨script', hstored, heq⟩ := Option.map_eq_some_iff.1 hscript
    cases heq
    exact ⟨hname, Option.map_eq_some_iff.1 hstored⟩
  · rintro ⟨hfile, hstored⟩
    exact ⟨file, hfile, Option.map_eq_some_iff.2 ⟨script, Option.map_eq_some_iff.2 hstored, rfl⟩⟩

/-- The references that are collected from scripts, in the order in which these are searched. -/
def collected (store : Store) (first name : String) : List Reference :=
  (searched (viewOf store) (storedScripts store) first).flatMap fun (_, script) => ParsedScript.references script name

private theorem places_collected (store : Store) (first name : String) :
    (collected store first name).map (fun r => (r.fileName, r.span)) =
      occurrences store name (searchOrder (viewOf store) first) := by
  unfold collected searched
  induction searchOrder (viewOf store) first with
  | nil => rfl
  | cons key rest ih =>
    rw [occurrences, List.flatMap_cons, ← occurrences, ← ih]
    cases hrecord : store.get? key with
    | none =>
      rw [List.filterMap_cons_none (by simp [storedScripts, hrecord])]
      rfl
    | some record =>
      rw [List.filterMap_cons_some (b := (key, Record.parsed key record)) (by simp [storedScripts, hrecord]),
        List.flatMap_cons, List.map_append]
      exact congrArg (· ++ _) (places_references key record.version record.content name)

/-- A reference that has been collected is a name in a stored script. -/
private theorem of_mem_collected {first : String} (hr : r ∈ collected store first name) :
    ∃ record, store.get? r.fileName = some record ∧
      ∃ n ∈ (Script.tree (dialectOf r.fileName) record.content).nodes, names record.content name n = true ∧
        r.span = .ofBounds n.start n.stop := by
  obtain ⟨⟨file, script⟩, hscript, hr⟩ := List.mem_flatMap.1 hr
  obtain ⟨-, record, hrecord, rfl⟩ := mem_searched_iff.1 hscript
  have hplace := List.mem_map_of_mem (f := fun r : Reference => (r.fileName, r.span)) hr
  rw [Record.parsed, places_references, placesIn, List.map_map, List.mem_map] at hplace
  obtain ⟨n, hn, hplace⟩ := hplace
  obtain ⟨hn, hname⟩ := List.mem_filter.1 hn
  obtain ⟨rfl, hspan⟩ := Prod.mk.inj hplace
  exact ⟨record, hrecord, n, hn, hname, hspan.symm⟩

private theorem collected_perm {first second : String} (hfirst : first ∈ store.paths) (hsecond : second ∈ store.paths)
    (name : String) : (collected store first name).Perm (collected store second name) :=
  (((searchOrder_perm hfirst).trans (searchOrder_perm hsecond).symm).filterMap _).flatMap_right _

/-- In each script the places of a name follow one another. -/
private theorem pairwise_occurrences {keys : List String} (hkeys : keys.Nodup) :
    (occurrences store name keys).Pairwise fun x x' => x.1 = x'.1 → x.2.stop ≤ x'.2.start := by
  have hkey : ∀ {key x}, x ∈ ((store.get? key).map fun record =>
      (placesIn key record.content name).map (key, ·)).getD [] → x.1 = key := by
    intro key x hx
    cases hrecord : store.get? key with
    | none => simp [hrecord] at hx
    | some record =>
      rw [hrecord] at hx
      obtain ⟨span, -, rfl⟩ := List.mem_map.1 hx
      rfl
  refine List.pairwise_flatMap.2 ⟨fun key _ => ?_, hkeys.imp fun {key key'} hne x hx x' hx' heq => ?_⟩
  · cases store.get? key with
    | none => exact .nil
    | some record =>
      refine List.pairwise_map.2 ((pairwise_placesIn key record.content name).1.imp ?_)
      exact fun hle _ => hle
  · exact absurd ((hkey hx).symm.trans (heq.trans (hkey hx'))) hne

private theorem completeReferences (hkey : key ∈ store.paths) (name : String) :
    CompleteReferences store key name (collected store key name) := by
  have hplaces := places_collected store key name
  have hnodup : (searchOrder (viewOf store) key).Nodup := (searchOrder_perm hkey).nodup_iff.2 store.nodup_paths
  have horder : (collected store key name).Pairwise fun r r' =>
      r.fileName = r'.fileName → r.span.stop ≤ r'.span.start := by
    have hpairwise : (occurrences store name (searchOrder (viewOf store) key)).Pairwise fun x x' =>
        x.1 = x'.1 → x.2.stop ≤ x'.2.start := pairwise_occurrences hnodup
    rw [← hplaces] at hpairwise
    exact List.pairwise_map.1 hpairwise
  refine
    { tracked := hkey
      places := hplaces
      sorted := ?_
      inOrder := horder
      once := List.pairwise_map.2 (horder.imp_of_mem fun {r r'} hr _ hle heq => ?_) }
  · have hboth := store.pairwise_paths.and store.nodup_paths
    exact (hboth.sublist List.filter_sublist).imp fun h => lt_of_le_of_ne h.1 h.2
  · -- two references at one place would have to follow one another
    obtain ⟨hfile, hspan⟩ := Prod.mk.inj heq
    obtain ⟨record, -, n, hn, hname, hr⟩ := of_mem_collected hr
    have hlt := (of_names hn hname).2.2.1
    have hstop := hle hfile
    rw [← hspan, hr] at hstop
    simp only [Span.stop, Span.ofBounds] at hstop
    omega

end

section

variable {n : Nat} {h : Host SyntaxEngine} {d : Disk} {key : String} {offset : Nat}

/-- The question where a name stands. -/
abbrev askReferences (key : String) (offset : Nat) : Action SyntaxEngine (Option (List ReferencedSymbol)) :=
  askAt (·.references) key offset

/-- What the engine answers when it is asked where the name at a byte stands; it gives the same scripts then. -/
private theorem askReferences_run (he : h.tools.engine = SyntaxEngine.engine)
    (hgiven : given (viewOf h.store) h.engineState = storedScripts h.store) {target : SyntaxEngine.Target}
    (htarget : nameAt (storedScripts h.store) key offset = some target) (d : Disk) : ∃ definition e,
      askReferences key offset d h =
        (.ok (some [⟨definition, collected h.store key target.name⟩]), { h with engineState := e }) ∧
      definition.name = target.name ∧ given (viewOf h.store) e = storedScripts h.store := by
  obtain ⟨hanswer, hagain⟩ := Answers.referencesAt key offset h.engineState hgiven
  rw [htarget, Option.bind_some] at hanswer
  refine ⟨_, _, ?_, name_firstDeclared (viewOf h.store) (storedScripts h.store) key target, hagain⟩
  show (Except.ok (h.tools.engine.references (viewOf h.store) key offset h.engineState).1, _) = _
  rw [he]
  exact congrArg (fun answer => (Except.ok answer, _)) hanswer

/-- Where there is no name, there is no answer. -/
private theorem askReferences_of_none (he : h.tools.engine = SyntaxEngine.engine)
    (hgiven : given (viewOf h.store) h.engineState = storedScripts h.store)
    (hnone : nameAt (storedScripts h.store) key offset = none) : (askReferences key offset d h).1 = .ok none := by
  obtain ⟨hanswer, -⟩ := Answers.referencesAt key offset h.engineState hgiven
  rw [hnone, Option.bind_none] at hanswer
  show Except.ok (h.tools.engine.references (viewOf h.store) key offset h.engineState).1 = _
  rw [he]
  exact congrArg Except.ok hanswer

/-- After every run of a host that uses the syntax engine, whatever has happened on the disk in between: if the host is
asked where the name at a byte of a script stands and has an answer, then this is about the name at that byte and lists
all places where the name stands in the tracked scripts, each once and in a fixed order.  If the host is asked again at
the start of any of these places, it lists the same, in the order in which they are found from there.  The engine passes
a byte to a tree in 32 bits, so a tree cannot be asked about what lies beyond them.  The bound on the length of the run
is there because versions are numbers of 64 bits, which start again after that many texts. -/
theorem references_complete {h₀ : Host SyntaxEngine} (hu : h₀.Unused) (he : h₀.tools.engine = SyntaxEngine.engine)
    (hs : h₀.engineState = .fresh) {run : List (Disk × Operation)} (hlen : run.length + 2 < 2 ^ 63)
    {symbols : List ReferencedSymbol} {h : Host SyntaxEngine}
    (hasked : askReferences key offset d (h₀.after run) = (.ok (some symbols), h)) :
    ∃ target definition references, nameAt (storedScripts h.store) key offset = some target ∧
      symbols = [⟨definition, references⟩] ∧ definition.name = target.name ∧
      CompleteReferences h.store key target.name references ∧
      ∀ r ∈ references, r.span.start < Nat.pow 2 32 → ∀ d', ∃ definition' references' h',
        askReferences r.fileName r.span.start d' h = (.ok (some [⟨definition', references'⟩]), h') ∧
          references'.Perm references := by
  have hup : UpToDate run.length (h₀.after run) := upToDate_after hu he hs (by omega)
  cases htarget : nameAt (storedScripts (h₀.after run).store) key offset with
  | none =>
    have hnone := askReferences_of_none hup.engine hup.given_eq htarget (d := d)
    rw [hasked] at hnone
    cases hnone
  | some target =>
    obtain ⟨definition, e, hrun, hname, hgiven⟩ := askReferences_run hup.engine hup.given_eq htarget d
    rw [hrun] at hasked
    obtain ⟨hanswer, rfl⟩ := Prod.mk.inj hasked
    obtain rfl := Option.some.inj (Except.ok.inj hanswer)
    obtain ⟨script, hscript, -⟩ := Option.bind_eq_some_iff.1 htarget
    obtain ⟨record, hrecord, -⟩ := Option.map_eq_some_iff.1 hscript
    have hkey : key ∈ (h₀.after run).store.paths := Store.mem_paths_iff.2 (by rw [hrecord]; rfl)
    refine ⟨target, definition, _, htarget, rfl, hname, completeReferences hkey target.name, fun r hr hstart d' => ?_⟩
    obtain ⟨record', hrecord', n, hn, hnames, hspan⟩ := of_mem_collected hr
    have htarget' : nameAt (storedScripts (h₀.after run).store) r.fileName r.span.start =
        some ⟨target.name, .ofBounds n.start n.stop⟩ := by
      rw [hspan] at hstart ⊢
      rw [nameAt, storedScripts, hrecord', Option.map_some, Option.bind_some]
      exact target?_of_names hn hnames le_rfl (of_names hn hnames).2.2.1 hstart
    obtain ⟨definition', e', hrun', -, -⟩ := askReferences_run (h := { h₀.after run with engineState := e }) hup.engine
      hgiven htarget' d'
    exact ⟨definition', _, _, hrun', collected_perm (Store.mem_paths_iff.2 (by rw [hrecord']; rfl)) hkey target.name⟩

/-- A name that stands in two scripts is asked about in the second, where it is not declared. -/
theorem references_complete_of_two_scripts : ∃ (h₀ : Host SyntaxEngine) (run : List (Disk × Operation))
    (symbols : List ReferencedSymbol) (h : Host SyntaxEngine),
    h₀.Unused ∧ run.length = 2 ∧ askReferences "/r/b.ts" 0 .empty (h₀.after run) = (.ok (some symbols), h) ∧
    h.store.contains "/r/a.ts" = true ∧
    ∃ target definition references, nameAt (storedScripts h.store) "/r/b.ts" 0 = some target ∧
      symbols = [⟨definition, references⟩] ∧ definition.name = target.name ∧
      CompleteReferences h.store "/r/b.ts" target.name references ∧
      ∀ r ∈ references, r.span.start < Nat.pow 2 32 → ∀ d', ∃ definition' references' h',
        askReferences r.fileName r.span.start d' h = (.ok (some [⟨definition', references'⟩]), h') ∧
          references'.Perm references := by
  let d := (Disk.empty.write "/r/a.ts" (.text "let x = 1; x")).write "/r/b.ts" (.text "x")
  let run : List (Disk × Operation) := [(d, .addFile { path := "/r/a.ts" }), (d, .addFile { path := "/r/b.ts" })]
  let h₀ : Host SyntaxEngine := fresh ⟨Resolution.nodeResolver, Merge.typePrelude, engine⟩ .fresh "/r"
  have htracked : (h₀.after run).store.contains "/r/a.ts" = true := by decide +kernel
  have hname : (nameAt (storedScripts (h₀.after run).store) "/r/b.ts" 0).isSome = true := by decide +kernel
  have hlen : run.length = 2 := rfl
  have hu : h₀.Unused := unused_fresh ..
  have he : h₀.tools.engine = engine := rfl
  have hs : h₀.engineState = SyntaxEngine.fresh := rfl
  clear_value run h₀
  obtain ⟨target, htarget⟩ := Option.isSome_iff_exists.1 hname
  have hup : UpToDate run.length (h₀.after run) := upToDate_after hu he hs (by omega)
  obtain ⟨definition, e, hrun, -, -⟩ := askReferences_run hup.engine hup.given_eq htarget .empty
  exact ⟨h₀, run, _, _, hu, hlen, hrun, htracked, references_complete hu he hs (by omega) hrun⟩

end

end ScriptHost.Host
