import ScriptHost.Proofs.Host.Closure

/-!
# The graph of a closure

The walk of `expandClosure` visits its first script and those that it tracks anew, and of every visit it records the
imports that it has met, the ones that lead nowhere new included.  So the graph says exactly what these scripts import,
and nothing about any other script (`expandClosure_graph`).
-/

namespace ScriptHost.Host

open ScriptHost.Imports ScriptHost.Path

variable {σ : Type} {d : Disk}

/-- The key of a visited script. -/
def Visit.key (v : Visit σ) : String := v.script.normalized

/-- The edges for the imports of a visited script. -/
def Visit.edges (d : Disk) (v : Visit σ) : List Edge := (v.imports d).map fun x => edgeTo x.2.1 x.2.2

/-! ### Keys -/

section

variable {known : List String} {ms : List (Meeting σ)}

private theorem nodup_discovered (d : Disk) (known : List String) (ms : List (Meeting σ)) :
    ((discovered d known ms).map (·.1.normalized)).Nodup := by
  induction ms generalizing known with
  | nil => exact List.nodup_nil
  | cons m rest ih =>
    unfold discovered
    split
    · exact ih known
    · cases m.record? d with
      | none => exact ih (m.key :: known)
      | some r =>
        refine List.nodup_cons.2 ⟨fun hm => ?_, ih (m.key :: known)⟩
        obtain ⟨x, hx, hxm⟩ := List.mem_map.1 hm
        exact not_mem_of_discovered hx (hxm ▸ List.mem_cons_self)

/-- The keys of meetings that were not known before, in the order of their first meetings. -/
def newKeys (known : List String) (ms : List (Meeting σ)) : List String :=
  ((ms.map Meeting.key).filter fun key => !known.contains key).eraseDups

private theorem newKeys_cons_of_known {m : Meeting σ} (hm : known.contains m.key = true) (rest : List (Meeting σ)) :
    newKeys known (m :: rest) = newKeys known rest := by
  simp [newKeys, List.contains_iff_mem.1 hm]

private theorem newKeys_cons_of_new {m : Meeting σ} (hm : known.contains m.key = false) (rest : List (Meeting σ)) :
    newKeys known (m :: rest) = m.key :: newKeys (m.key :: known) rest := by
  have hnew : m.key ∉ known := by simpa using hm
  unfold newKeys
  rw [List.map_cons, List.filter_cons_of_pos (by simp [hnew]), List.eraseDups_cons, List.filter_filter]
  simp [Bool.beq_eq_decide_eq]

/-- The keys of what is discovered are the new keys without those that are not discovered. -/
private theorem keys_discovered {p : String → Bool} (hp : ∀ m ∈ ms, m.key ∉ known →
      (p m.key = true ↔ m.key ∈ (discovered d known ms).map (·.1.normalized))) :
    (discovered d known ms).map (·.1.normalized) = (newKeys known ms).filter p := by
  induction ms generalizing known with
  | nil => rfl
  | cons m rest ih =>
    cases hc : known.contains m.key with
    | true =>
      rw [discovered_cons_of_known hc] at hp ⊢
      rw [newKeys_cons_of_known hc]
      exact ih fun m' hm' => hp m' (List.mem_cons_of_mem _ hm')
    | false =>
      rw [discovered_cons_of_new hc, List.map_append] at hp ⊢
      have hfirst := hp m List.mem_cons_self (by simpa using hc)
      have hlater : m.key ∉ (discovered d (m.key :: known) rest).map (·.1.normalized) := by
        intro hm
        obtain ⟨x, hx, hxm⟩ := List.mem_map.1 hm
        exact not_mem_of_discovered hx (hxm ▸ List.mem_cons_self)
      rw [List.mem_append, or_iff_left hlater] at hfirst
      have hrest := @ih (m.key :: known) fun m' hm' hknown => by
        obtain ⟨hne, hknown⟩ := List.ne_and_not_mem_of_not_mem_cons hknown
        rw [hp m' (List.mem_cons_of_mem _ hm') hknown, List.mem_append, or_iff_right]
        cases m.record? d with
        | none => exact List.not_mem_nil
        | some r => exact fun hm => hne (List.mem_singleton.1 hm)
      rw [newKeys_cons_of_new hc, hrest]
      cases hr : m.record? d with
      | none =>
        rw [hr] at hfirst
        rw [List.filter_cons_of_neg fun hpm => List.not_mem_nil (hfirst.1 hpm)]
        rfl
      | some r =>
        rw [hr] at hfirst
        rw [List.filter_cons_of_pos (hfirst.2 (List.mem_singleton.2 rfl))]
        rfl

private theorem find?_discovered_of_mem {x : Identity × Record} (hx : x ∈ discovered d known ms) :
    (discovered d known ms).find? (·.1.normalized == x.1.normalized) = some x := by
  obtain ⟨before, after, hsplit⟩ := List.append_of_mem hx
  have hnodup := nodup_discovered d known ms
  rw [hsplit, List.map_append, List.map_cons, List.nodup_middle, List.nodup_cons, List.mem_append, not_or] at hnodup
  refine List.find?_eq_some_iff_append.2 ⟨beq_self_eq_true _, before, after, hsplit, fun y hy => ?_⟩
  have hne : y.1.normalized ≠ x.1.normalized := fun heq => hnodup.1.1 (heq ▸ List.mem_map_of_mem hy)
  simpa using hne

end

/-! ### The start of a closure -/

/-- A closure has stored its first script, and its walk starts. -/
structure Started (d : Disk) (path : String) (origin : Option String) (h : Host σ) (root : Observation)
    (start : Host σ) : Prop where
  rooted : ∃ h₀ stored, observe path origin none d h = (.ok root, h₀) ∧ commit root d h₀ = (.ok stored, start)
  sound : start.memo.Sound
  kept : ∀ key, key ≠ root.path → start.store.get? key = h.store.get? key
  raw : (start.store.get? root.path).map (·.rawContent) = some root.raw

/-- A commit that does not fail leaves the text that was observed. -/
private theorem raw_of_commit {o : Observation} (ho : o.identity.WellFormed) {h h' : Host σ} (hm : h.memo.Sound)
    (hn : o.needsUpdate = h.store.needsUpdate o.path o.raw) {stored : Bool} (hc : commit o d h = (.ok stored, h')) :
    (h'.store.get? o.path).map (·.rawContent) = some o.raw := by
  have hrecord := get?_commit (.of_wellFormed ho d) hm o.path
  rw [hc, if_pos rfl] at hrecord
  rw [hrecord]
  cases hr : o.record? d h with
  | some r =>
    obtain ⟨-, content, -, rfl⟩ := record?_eq_some_iff.1 hr
    rfl
  | none =>
    cases hnews : o.needsUpdate with
    | true =>
      -- a text that is news is stored unless the merge fails, and then the commit fails
      unfold commit at hc
      rw [hnews] at hc
      obtain ⟨content, h₁, hmerged, -⟩ := Action.bind_eq_ok.1 hc
      have hcontent : (mergedContent o d h).1 = .ok content := by rw [hmerged]
      rw [record?_eq_some_iff.2 ⟨hnews, content, hcontent, rfl⟩] at hr
      cases hr
    | false =>
      rw [hnews, Store.needsUpdate] at hn
      cases hold : h.store.get? o.path with
      | none =>
        rw [hold] at hn
        cases hn
      | some r =>
        rw [hold] at hn
        simpa using hn

private theorem expandClosure_starts {h h' : Host σ} (hm : h.memo.Sound) {path : String} {origin : Option String}
    {graph : Graph} (hok : expandClosure path origin d h = (.ok graph, h')) :
    ∃ root start, Started d path origin h root start ∧
      walk start.walkLimit (.start .empty root) d start = (.ok graph, h') := by
  obtain ⟨root, h₀, hroot, hok⟩ := Action.bind_eq_ok.1 hok
  obtain ⟨stored, start, hcommit, hok⟩ := Action.bind_eq_ok.1 hok
  obtain ⟨i, h₁, hi, ho⟩ := Action.bind_eq_ok.1 hroot
  obtain ⟨rfl, -, hid, hnews⟩ := observeIdentity_eq_ok.1 ho
  have hq := identify_quiet path origin d h
  rw [hi] at hq
  have hm₀ := hq.sound hm
  have hwf : root.identity.WellFormed := hid ▸ wellFormed_of_identify hm hi
  have honward := commit_onward (.of_wellFormed hwf d) hm₀
  have hrecord := get?_commit (.of_wellFormed hwf d) hm₀
  have hraw := raw_of_commit hwf hm₀ (by rw [hnews, Observation.path, hid]) hcommit
  rw [hcommit] at honward hrecord
  refine ⟨root, start, ⟨⟨h₀, stored, hroot, hcommit⟩, honward.sound hm₀, fun key hkey => ?_, hraw⟩, hok⟩
  rw [hrecord, if_neg hkey, hq.store]

/-! ### The graph -/

instance (root : String) (h h' : Host σ) (key : String) : Decidable (TrackedAnew root h h' key) :=
  decidable_of_iff (key ≠ root ∧ h.store.get? key = none ∧ (h'.store.get? key).isSome)
    ⟨fun ⟨hother, hbefore, hafter⟩ => ⟨hother, hbefore, hafter⟩, fun h => ⟨h.other, h.before, h.after⟩⟩

/-- A script whose imports are followed: the first one, and those that are tracked anew. -/
def Expanded (root : String) (h h' : Host σ) (key : String) : Prop := key = root ∨ TrackedAnew root h h' key

instance (root : String) (h h' : Host σ) (key : String) : Decidable (Expanded root h h' key) :=
  inferInstanceAs (Decidable (_ ∨ _))

/-- What the graph of a closure says that leads from `h` to `h'`, where `root` is the first script and `start` the host
when that has been stored. -/
structure ClosureGraph (d : Disk) (path : String) (origin : Option String) (h : Host σ) (root : Observation)
    (start : Host σ) (visits : List (Visit σ)) (graph : Graph) (h' : Host σ) : Prop where
  started : Started d path origin h root start
  first : visits.head?.map (fun v => (v.script, v.text)) = some (root.identity, root.raw)
  /-- Every expanded script is visited once, in the order in which the graph mentions them. -/
  keys : visits.map Visit.key = graph.files.filter fun key => Expanded root.path h h' key
  once : (visits.map Visit.key).Nodup
  visited : ∀ key, Expanded root.path h h' key → key ∈ visits.map Visit.key
  /-- It is visited with the text that is tracked in the end. -/
  texts : ∀ v ∈ visits, (h'.store.get? v.key).map (·.rawContent) = some v.text
  /-- Its imports are looked up in the course of the walk. -/
  looked : ∀ v ∈ visits, Onward d start v.host ∧ Onward d v.host h'
  edges : graph.edges = visits.flatMap fun v => (v.edges d).map (v.key, ·)
  imports : ∀ v ∈ visits, graph.importsOf v.key = v.edges d
  unexpanded : ∀ key, ¬ Expanded root.path h h' key → graph.importsOf key = []
  files : graph.files = (root.path :: graph.edges.map (·.2.normalized)).eraseDups
  reachable : ∀ file ∈ graph.files, Relation.ReflTransGen graph.LeadsTo root.path file

section

variable {h start h' : Host σ} {path : String} {origin : Option String} {root : Observation} {graph : Graph}
  {visits : List (Visit σ)} {meetings : List (Meeting σ)}

private theorem mem_discovered_iff (hs : Started d path origin h root start)
    (hi : Itinerary d [root.path] start [(root.identity, root.raw)] visits meetings h') (key : String) :
    key ∈ (discovered d [root.path] meetings).map (·.1.normalized) ↔ TrackedAnew root.path h h' key := by
  constructor
  · intro hkey
    obtain ⟨x, hx, rfl⟩ := List.mem_map.1 hkey
    exact trackedAnew_of_discovered hi hs.kept hx
  · intro hanew
    have hafter := hanew.after
    rw [hi.trail.reached.record, recordAfter, hs.kept key hanew.other, hanew.before, Option.none_or,
      Option.isSome_map, List.find?_isSome] at hafter
    obtain ⟨x, hx, hxkey⟩ := hafter
    exact List.mem_map.2 ⟨x, hx, by simpa using hxkey⟩

private theorem keys_of_itinerary (hi : Itinerary d [root.path] start [(root.identity, root.raw)] visits meetings h') :
    visits.map Visit.key = root.path :: (discovered d [root.path] meetings).map (·.1.normalized) := by
  have hkeys := congrArg (List.map fun x => x.1.normalized) hi.visited
  rw [List.map_map, List.map_append, List.map_map] at hkeys
  exact hkeys

/-- A script that is visited on a walk is tracked in the end, with the text with which it was visited. -/
private theorem raw_of_visited (hs : Started d path origin h root start)
    (hi : Itinerary d [root.path] start [(root.identity, root.raw)] visits meetings h') {v : Visit σ}
    (hv : v ∈ visits) : (h'.store.get? v.key).map (·.rawContent) = some v.text := by
  rw [hi.trail.reached.record, recordAfter]
  rcases hi.waiting_or_discovered hv with hroot | ⟨x, hx, hxv, hraw⟩
  · obtain ⟨hscript, htext⟩ := Prod.mk.inj (List.mem_singleton.1 hroot)
    have hstart := hs.raw
    rw [Visit.key, hscript, htext]
    cases hr : start.store.get? root.path with
    | none =>
      rw [hr] at hstart
      cases hstart
    | some r =>
      rw [hr] at hstart
      rw [show start.store.get? root.identity.normalized = some r from hr, Option.some_or]
      exact hstart
  · have hanew := trackedAnew_of_discovered hi hs.kept hx
    have hkey : v.key = x.1.normalized := congrArg Identity.normalized hxv.symm
    rw [hkey, hs.kept _ hanew.other, hanew.before, find?_discovered_of_mem hx, ← hraw]
    rfl

private theorem edges_of_itinerary (hi : Itinerary d [root.path] start [(root.identity, root.raw)] visits meetings h') :
    meetings.map Meeting.edge = visits.flatMap fun v => (v.edges d).map (v.key, ·) := by
  have hedges := congrArg (List.map fun x => (x.1.normalized, edgeTo x.2.1 x.2.2)) hi.imported
  rw [List.map_map, List.map_flatMap] at hedges
  refine hedges.trans (List.flatMap_congr fun v _ => ?_)
  unfold Visit.edges Visit.imports
  simp only [List.map_map]
  rfl

/-- The visited scripts are the files of the graph that are expanded, in the same order. -/
private theorem keys_eq_filter_files (hs : Started d path origin h root start)
    (hi : Itinerary d [root.path] start [(root.identity, root.raw)] visits meetings h')
    (hfiles : graph.files = (root.path :: meetings.map Meeting.key).eraseDups) :
    visits.map Visit.key = graph.files.filter fun key => Expanded root.path h h' key := by
  have hnew : ∀ m ∈ meetings, m.key ∉ [root.path] → (decide (Expanded root.path h h' m.key) = true ↔
      m.key ∈ (discovered d [root.path] meetings).map (·.1.normalized)) := by
    intro m _ hm
    have hne : m.key ≠ root.path := by simpa using hm
    rw [decide_eq_true_iff, mem_discovered_iff hs hi, Expanded, or_iff_right hne]
  have hothers : graph.files = root.path :: newKeys [root.path] meetings := by
    rw [hfiles, List.eraseDups_cons]
    simp [newKeys, Bool.beq_eq_decide_eq]
  rw [keys_of_itinerary hi, keys_discovered (p := fun key => Expanded root.path h h' key) hnew, hothers,
    List.filter_cons_of_pos (by simp [Expanded])]

private theorem importsOf_visited (hedges : graph.edges = visits.flatMap fun v => (v.edges d).map (v.key, ·))
    (honce : (visits.map Visit.key).Nodup) {v : Visit σ} (hv : v ∈ visits) : graph.importsOf v.key = v.edges d := by
  have hgroups : graph.edges = (visits.map fun v => (v.key, v.edges d)).flatMap fun x => x.2.map (x.1, ·) := by
    rw [hedges, List.flatMap_map]
  have hnodup : ((visits.map fun v => (v.key, v.edges d)).map Prod.fst).Nodup := by
    rw [List.map_map]
    exact honce
  have hmem : (v.key, v.edges d) ∈ visits.map fun v => (v.key, v.edges d) := List.mem_map_of_mem hv
  exact Graph.importsOf_of_grouped hgroups hnodup hmem

private theorem reflTransGen_of_edge (hi : Itinerary d [root.path] start [(root.identity, root.raw)] visits meetings h')
    (hedges : graph.edges = meetings.map Meeting.edge) {m : Meeting σ} (hm : m ∈ meetings) :
    Relation.ReflTransGen graph.LeadsTo root.path m.key := by
  have hedge : ∀ m ∈ meetings, graph.LeadsTo m.importer.normalized m.script.normalized := by
    intro m hm
    refine ⟨edgeTo m.name m.script, ?_, rfl⟩
    rw [hedges]
    exact List.mem_map_of_mem hm
  obtain ⟨v, hv, hmet⟩ := hi.exists_visit hm
  obtain ⟨first, hfirst, hlead⟩ := hi.reflTransGen
    (R := fun a b => graph.LeadsTo a.normalized b.normalized) (fun m hm _ _ _ => hedge m hm) hv
  have hkeys := hlead.lift Identity.normalized fun _ _ hab => hab
  rw [List.mem_singleton.1 hfirst, ← (Visit.mem_imports_iff.1 hmet).1] at hkeys
  exact hkeys.tail (hedge m hm)

end

/-- The graph of a closure is exact.  Its edges are the imports of the first script and of those that the walk has
tracked anew, as they stand in their texts, but for those that cannot be resolved or are excluded; no other script has
edges, be it tracked before or not to be loaded or merged.  The files are the first one and what the edges lead to, in
the order of first mention, and each of them is reached from the first one. -/
theorem expandClosure_graph {h h' : Host σ} (hr : h.Reachable) {path : String} {origin : Option String}
    {graph : Graph} (hok : expandClosure path origin d h = (.ok graph, h')) :
    ∃ root start visits, ClosureGraph d path origin h root start visits graph h' := by
  obtain ⟨root, start, hs, hwalk⟩ := expandClosure_starts hr.sound hok
  obtain ⟨visits, meetings, ht⟩ := walk_tour hs.sound hwalk
  have hi : Itinerary d [root.path] start [(root.identity, root.raw)] visits meetings h' := ht.itinerary
  have hedges : graph.edges = meetings.map Meeting.edge := by
    rw [ht.edges]
    rfl
  have hgrouped := hedges.trans (edges_of_itinerary hi)
  have hfiles : graph.files = (root.path :: meetings.map Meeting.key).eraseDups :=
    ht.files (show [root.path] = List.eraseDups [root.path] from rfl) fun x hx => by
      rw [List.mem_singleton.1 hx]
      exact List.mem_singleton_self _
  have hkeys := keys_of_itinerary hi
  have hvisited : ∀ key, key ∈ visits.map Visit.key ↔ Expanded root.path h h' key := by
    intro key
    rw [hkeys, List.mem_cons, mem_discovered_iff hs hi]
    rfl
  have honce : (visits.map Visit.key).Nodup := by
    rw [hkeys, List.nodup_cons]
    refine ⟨fun hroot => ?_, nodup_discovered ..⟩
    exact ((mem_discovered_iff hs hi _).1 hroot).other rfl
  refine ⟨root, start, visits, hs, ?_, ?_, honce, fun key => (hvisited key).2, fun v => raw_of_visited hs hi,
    fun v hv => ⟨hi.looked v hv, ht.left v hv⟩, hgrouped, ?_, ?_, ?_, ?_⟩
  · have hfirst := congrArg List.head? hi.visited
    rwa [List.head?_map] at hfirst
  · exact keys_eq_filter_files hs hi hfiles
  · exact fun v hv => importsOf_visited hgrouped honce hv
  · intro key hkey
    refine Graph.importsOf_eq_nil fun x hx => ?_
    rw [hgrouped] at hx
    obtain ⟨v, hv, hx⟩ := List.mem_flatMap.1 hx
    obtain ⟨edge, -, rfl⟩ := List.mem_map.1 hx
    rintro rfl
    exact hkey ((hvisited _).1 (List.mem_map_of_mem hv))
  · rw [hfiles, hedges, List.map_map]
    rfl
  · intro file hfile
    rw [hfiles, List.mem_eraseDups, List.mem_cons] at hfile
    rcases hfile with rfl | hmet
    · exact .refl
    · obtain ⟨m, hm, rfl⟩ := List.mem_map.1 hmet
      exact reflTransGen_of_edge hi hedges hm

/-- Scripts that import each other are visited once, and both imports are recorded. -/
theorem expandClosure_graph_of_cycle :
    ∃ root start visits,
      ClosureGraph ((Disk.empty.write "/r/a.ts" (.text "import './b'")).write "/r/b.ts" (.text "import './a'"))
        "/r/a.ts" none (fresh ⟨Resolution.nodeResolver, Merge.typePrelude, Analysis.SyntaxEngine.engine⟩ .fresh "/r")
        root start visits
        ((Graph.empty.addImport "/r/a.ts" ⟨"./b", "/r/b.ts", "/r/b.ts"⟩).addImport "/r/b.ts"
          ⟨"./a", "/r/a.ts", "/r/a.ts"⟩)
        (expandClosure "/r/a.ts" none
          ((Disk.empty.write "/r/a.ts" (.text "import './b'")).write "/r/b.ts" (.text "import './a'"))
          (fresh ⟨Resolution.nodeResolver, Merge.typePrelude, Analysis.SyntaxEngine.engine⟩ .fresh "/r")).2 := by
  have hok : (expandClosure "/r/a.ts" none
      ((Disk.empty.write "/r/a.ts" (.text "import './b'")).write "/r/b.ts" (.text "import './a'"))
      (fresh ⟨Resolution.nodeResolver, Merge.typePrelude, Analysis.SyntaxEngine.engine⟩ .fresh
        "/r")).1.toOption = some ((Graph.empty.addImport "/r/a.ts" ⟨"./b", "/r/b.ts", "/r/b.ts"⟩).addImport "/r/b.ts"
          ⟨"./a", "/r/a.ts", "/r/a.ts"⟩) := by
    decide +kernel
  exact expandClosure_graph (unused_fresh ..).reachable (Action.run_of_answer (toOption_eq_some_iff.1 hok))

end ScriptHost.Host
