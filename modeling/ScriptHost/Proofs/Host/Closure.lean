import Mathlib.Logic.Relation
import ScriptHost.Analysis.SyntaxEngine
import ScriptHost.Proofs.Host.Itinerary
import ScriptHost.Proofs.Host.Step
import ScriptHost.Proofs.Imports.Graph
import ScriptHost.Resolution.Lookup

/-!
# What a closure tracks

The walk of `expandClosure` has an itinerary (`walk_itinerary`).  So a closure changes no record but that of its first
script, and what it tracks anew are the scripts that are met first with their keys and can be loaded and merged
(`expandClosure_tracks`).
-/

namespace ScriptHost.Host

open ScriptHost.Imports ScriptHost.Path

variable {σ : Type} {d : Disk}

/-! ### Tracking what is met -/

/-- A script that is met is observed, and its record is what would be stored for that. -/
private theorem observe_met (d : Disk) (m : Meeting σ) :
    (∃ e, observeIdentity m.script none d m.host = (.error e, m.host) ∧ m.record? d = none) ∨
      ∃ o, observeIdentity m.script none d m.host = (.ok o, m.host) ∧ o.identity = m.script ∧
        m.record? d = o.record? d m.host := by
  rw [observeIdentity_run]
  unfold Meeting.record? Meeting.key
  cases hr : m.host.store.get? m.script.normalized with
  | some record =>
    have hold : m.host.store.needsUpdate m.script.normalized record.rawContent = false := by
      simp [Store.needsUpdate, hr]
    refine .inr ⟨⟨m.script, record.rawContent, false⟩, ?_, rfl, ?_⟩
    · rw [seenText_of_stored hr, ← hold]
      rfl
    · rw [if_pos (by rw [Table.contains, hr]; rfl), record?_of_not_news rfl]
  | none =>
    have hnew : ∀ text, m.host.store.needsUpdate m.script.normalized text = true := by
      intro text
      simp [Store.needsUpdate, hr]
    have hone : m.host.store.nextVersion m.script.normalized = 1 := by
      simp [Store.nextVersion, hr]
    rw [if_neg (by rw [Table.contains, hr]; decide), seenText_of_untracked hr]
    cases d.load (fileOf m.script) with
    | error e => exact .inl ⟨.load e, rfl, rfl⟩
    | ok text =>
      refine .inr ⟨⟨m.script, text, true⟩, ?_, rfl, ?_⟩
      · rw [← hnew text]
        rfl
      · simp only [Observation.record?, Observation.path, hone, if_true]
        rfl

/-- A script that is met is tracked with its record, if it gets one, and no other record changes. -/
theorem trackImport_run {m : Meeting σ} (hwf : m.script.WellFormed) (hm : m.host.memo.Sound) :
    ∃ h', trackImport m.script d m.host = (.ok ((m.record? d).map (·.rawContent)), h') ∧ Onward d m.host h' ∧
      ∀ key, h'.store.get? key =
        if key = m.key then (m.record? d).or (m.host.store.get? key) else m.host.store.get? key := by
  unfold trackImport
  rcases observe_met d m with ⟨e, ho, hr⟩ | ⟨o, ho, hid, hr⟩
  · rw [Action.bind_attempt_run ho, hr]
    exact ⟨m.host, rfl, .refl d m.host, fun key => by simp⟩
  · rw [Action.bind_attempt_run ho, hr]
    have hkey : o.path = m.key := congrArg Identity.normalized hid
    have hapart : o.Apart d := .of_wellFormed (hid ▸ hwf) d
    have honward := commit_onward hapart hm
    have hrecord := get?_commit hapart hm
    have hanswer := commit_answer o d m.host
    rw [hkey] at hrecord
    show ∃ h', (((commit o).attempt >>= _) d m.host) = _ ∧ _
    rcases hc : commit o d m.host with ⟨answer, h'⟩
    rw [hc] at honward hrecord hanswer
    refine ⟨h', ?_, honward, hrecord⟩
    rw [Action.bind_attempt_run hc]
    cases hsome : o.record? d m.host with
    | none =>
      rw [hsome] at hanswer
      rcases answer with e | ⟨⟩ | ⟨⟩
      · rfl
      · rfl
      · cases hanswer
    | some r =>
      rw [hsome] at hanswer
      obtain ⟨-, content, -, rfl⟩ := record?_eq_some_iff.1 hsome
      rcases answer with e | ⟨⟩ | ⟨⟩
      · cases hanswer
      · cases hanswer
      · rfl

/-! ### Following imports -/

/-- What is recorded of an import: the key of the importer, and the edge to the script that is met. -/
def Meeting.edge (m : Meeting σ) : String × Edge := (m.importer.normalized, edgeTo m.name m.script)

/-- The imports of a script are met one after the other, but for those that are excluded, and a walk goes on with what
has been discovered. -/
structure Round (d : Disk) (importer : Identity) (imports : List (String × Identity)) (w : Walk) (h : Host σ)
    (meetings : List (Meeting σ)) (w' : Walk) (h' : Host σ) : Prop where
  recorded : w'.graph = w.graph.record (meetings.map Meeting.edge)
  visited : w'.visited = knownAfter w.visited meetings
  queue : w'.queue = w.queue ++ (discovered d w.visited meetings).map fun x => (x.1, x.2.rawContent)
  imported : meetings.map (fun m => (m.importer, m.name, m.script)) =
    (imports.filter fun x => !h.exclusions.excludes x.2.normalized).map fun x => (importer, x.1, x.2)
  trail : Trail d w.visited h meetings h'

namespace Round

variable {importer i : Identity} {raw : String} {rest : List (String × Identity)} {w w' : Walk}
  {h h₁ h' : Host σ} {ms : List (Meeting σ)}

private theorem nil (importer : Identity) (w : Walk) (h : Host σ) : Round d importer [] w h [] w h where
  recorded := rfl
  visited := rfl
  queue := (List.append_nil w.queue).symm
  imported := rfl
  trail := .nil (.nil w.visited (.refl d h) rfl)

private theorem excluded (hex : h.exclusions.excludes i.normalized = true) (hr : Round d importer rest w h ms w' h') :
    Round d importer ((raw, i) :: rest) w h ms w' h' where
  recorded := hr.recorded
  visited := hr.visited
  queue := hr.queue
  imported := by simpa [hex] using hr.imported
  trail := hr.trail

/-- A meeting that is not the first one with its key changes nothing. -/
private theorem known (hex : h.exclusions.excludes i.normalized = false)
    (hknown : w.visited.contains i.normalized = true) (hr : Round d importer rest
      ⟨w.graph.addImport importer.normalized (edgeTo raw i), w.visited, w.queue⟩ h ms w' h') :
    Round d importer ((raw, i) :: rest) w h (⟨importer, raw, i, h⟩ :: ms) w' h' where
  recorded := hr.recorded
  visited := by
    rw [knownAfter_cons_of_known hknown]
    exact hr.visited
  queue := by
    rw [discovered_cons_of_known hknown]
    exact hr.queue
  imported := by simpa [hex] using hr.imported
  trail := by
    refine (Trail.singleton (m := ⟨importer, raw, i, h⟩) (.of_known hknown)).append ?_
    rw [knownAfter_cons_of_known hknown]
    exact hr.trail

/-- After a first meeting, the walk goes on with the script that has been met if that was tracked. -/
private theorem new (hex : h.exclusions.excludes i.normalized = false)
    (hnew : w.visited.contains i.normalized = false) (hone : Trail d w.visited h [⟨importer, raw, i, h⟩] h₁)
    (hr : Round d importer rest
      ⟨w.graph.addImport importer.normalized (edgeTo raw i), i.normalized :: w.visited,
        w.queue ++ ((Meeting.record? d ⟨importer, raw, i, h⟩).map fun r => (i, r.rawContent)).toList⟩ h₁ ms w' h') :
    Round d importer ((raw, i) :: rest) w h (⟨importer, raw, i, h⟩ :: ms) w' h' where
  recorded := hr.recorded
  visited := by
    rw [knownAfter_cons_of_new hnew]
    exact hr.visited
  queue := by
    have hqueue := hr.queue
    rw [discovered_cons_of_new hnew, hqueue, List.append_assoc]
    cases Meeting.record? d ⟨importer, raw, i, h⟩ <;> rfl
  imported := by
    have hlater := hr.imported
    rw [hone.reached.onward.exclusions] at hlater
    simpa [hex] using hlater
  trail := by
    refine hone.append ?_
    rw [knownAfter_cons_of_new hnew, knownAfter]
    exact hr.trail

theorem scripts {imports : List (String × Identity)} (hr : Round d importer imports w h ms w' h') :
    ms.map (·.script) = (imports.map (·.2)).filter fun i => !h.exclusions.excludes i.normalized := by
  have hscripts := congrArg (List.map (·.2.2)) hr.imported
  rw [List.map_map, List.map_map] at hscripts
  rw [List.filter_map]
  exact hscripts

end Round

theorem followImports_run (importer : Identity) (imports : List (String × Identity)) (w : Walk) {h : Host σ}
    (hm : h.memo.Sound) (hwf : ∀ x ∈ imports, x.2.WellFormed) :
    ∃ ms w' h', followImports importer.normalized imports w d h = (.ok w', h') ∧
      Round d importer imports w h ms w' h' := by
  induction imports generalizing w h with
  | nil => exact ⟨[], w, h, rfl, .nil importer w h⟩
  | cons x rest ih =>
    obtain ⟨raw, i⟩ := x
    obtain ⟨hi, hrest⟩ := List.forall_mem_cons.1 hwf
    cases hex : h.exclusions.excludes i.normalized with
    | true =>
      rw [followImports_of_excluded hex]
      obtain ⟨ms, w', h', hrun, hround⟩ := ih w hm hrest
      exact ⟨ms, w', h', hrun, hround.excluded hex⟩
    | false =>
      cases hvis : w.visited.contains i.normalized with
      | true =>
        rw [followImports_of_met hex hvis]
        obtain ⟨ms, w', h', hrun, hround⟩ := ih ⟨_, w.visited, w.queue⟩ hm hrest
        exact ⟨⟨importer, raw, i, h⟩ :: ms, w', h', hrun, hround.known hex hvis⟩
      | false =>
        obtain ⟨h₁, htrack, honward, hrecord⟩ := trackImport_run (d := d) (m := ⟨importer, raw, i, h⟩) hi hm
        have hone : Trail d w.visited h [⟨importer, raw, i, h⟩] h₁ :=
          .singleton (.of_new hvis honward hrecord (by rw [htrack]))
        cases hrec : Meeting.record? d ⟨importer, raw, i, h⟩ with
        | none =>
          rw [hrec] at htrack
          rw [followImports_of_passed hex hvis htrack]
          obtain ⟨ms, w', h', hrun, hround⟩ := ih ⟨_, i.normalized :: w.visited, w.queue⟩ (honward.sound hm) hrest
          refine ⟨⟨importer, raw, i, h⟩ :: ms, w', h', hrun, .new hex hvis hone ?_⟩
          rw [hrec]
          simpa using hround
        | some r =>
          rw [hrec] at htrack
          rw [followImports_of_tracked hex hvis htrack]
          obtain ⟨ms, w', h', hrun, hround⟩ :=
            ih ⟨_, i.normalized :: w.visited, w.queue ++ [(i, r.rawContent)]⟩ (honward.sound hm) hrest
          refine ⟨⟨importer, raw, i, h⟩ :: ms, w', h', hrun, .new hex hvis hone ?_⟩
          rw [hrec]
          exact hround

/-! ### Walks -/

/-- A leg of a walk: from `h`, the imports of a script are looked up, and from `h₁`, they are followed to `h₂`. -/
structure Leg (d : Disk) (script : Identity) (text : String) (w : Walk) (h h₁ : Host σ) (meetings : List (Meeting σ))
    (w' : Walk) (h₂ : Host σ) : Prop where
  looked : importsIn text script.resolved d h =
    (.ok (identified script.resolved (importNames h.tools.resolver text) d h₁), h₁)
  quiet : Quiet d h h₁
  engine : h₁.engineState = h.engineState
  followed : followImports script.normalized (identified script.resolved (importNames h.tools.resolver text) d h₁) w d
    h₁ = (.ok w', h₂)
  round : Round d script (identified script.resolved (importNames h.tools.resolver text) d h₁) w h₁ meetings w' h₂

theorem exists_leg (script : Identity) (text : String) (w : Walk) {h : Host σ} (hm : h.memo.Sound) :
    ∃ h₁ ms w' h₂, Leg d script text w h h₁ ms w' h₂ := by
  obtain ⟨h₁, himports, hq, hengine⟩ := importsIn_run text script.resolved d h
  have hm₁ := hq.sound hm
  obtain ⟨ms, w', h₂, hfollow, hround⟩ := followImports_run (d := d) script
    (identified script.resolved (importNames h.tools.resolver text) d h₁) w hm₁ (wellFormed_of_mem_identified hm₁)
  exact ⟨h₁, ms, w', h₂, himports, hq, hengine, hfollow, hround⟩

namespace Leg

variable {script : Identity} {text : String} {w w' : Walk} {h h₁ h₂ : Host σ} {ms : List (Meeting σ)}

theorem sound (hleg : Leg d script text w h h₁ ms w' h₂) (hm : h.memo.Sound) : h₂.memo.Sound :=
  hleg.round.trail.reached.onward.sound (hleg.quiet.sound hm)

theorem next (hleg : Leg d script text w h h₁ ms w' h₂) (limit : Nat) :
    walk (limit + 1) ⟨w.graph, w.visited, (script, text) :: w.queue⟩ d h = walk limit w' d h₂ := by
  rw [walk, Action.bind_run_of_ok hleg.looked, Action.bind_run_of_ok hleg.followed]

theorem identified (hleg : Leg d script text w h h₁ ms w' h₂) {m : Meeting σ} (hm : m ∈ ms) :
    ∃ name ∈ importNames h.tools.resolver text, (identify name (some script.resolved) d h₁).1 = .ok m.script := by
  have hmet : (m.importer, m.name, m.script) ∈ ms.map fun m => (m.importer, m.name, m.script) :=
    List.mem_map_of_mem hm
  rw [hleg.round.imported] at hmet
  obtain ⟨x, hx, hxm⟩ := List.mem_map.1 hmet
  obtain ⟨name, hname, hmap⟩ := List.mem_filterMap.1 (List.mem_filter.1 hx).1
  obtain ⟨i, hi, rfl⟩ := Option.map_eq_some_iff.1 hmap
  cases hxm
  exact ⟨_, hname, toOption_eq_some_iff.1 hi⟩

end Leg

/-- Whether a walk is given up or not, it keeps what its legs keep. -/
theorem walk_keeps {I : List (Identity × String) → Host σ → Prop} (hsound : ∀ {queue h}, I queue h → h.memo.Sound)
    (hleg : ∀ {script text w h h₁ ms w' h₂}, I ((script, text) :: w.queue) h → Leg d script text w h h₁ ms w' h₂ →
      I w'.queue h₂) (limit : Nat) {w : Walk} {h : Host σ} (hI : I w.queue h) :
    ∃ queue, I queue (walk limit w d h).2 := by
  induction limit, w using walk_induction generalizing h with
  | done limit graph visited =>
    rw [walk_nil]
    exact ⟨_, hI⟩
  | givenUp graph visited x queue => exact ⟨_, hI⟩
  | visit limit graph visited script text queue ih =>
    obtain ⟨h₁, ms, w', h₂, hfirst⟩ := exists_leg (d := d) script text ⟨graph, visited, queue⟩ (hsound hI)
    rw [hfirst.next limit]
    exact ih w' (hleg hI hfirst)

theorem walk_keeps_record (key : String) (r : Record) (limit : Nat) (w : Walk) :
    (walk limit w : Action σ _).Keeps d fun h => h.memo.Sound ∧ h.store.get? key = some r := by
  intro h hI
  obtain ⟨-, hkept⟩ := walk_keeps (d := d) (I := fun _ h => h.memo.Sound ∧ h.store.get? key = some r) And.left
    (fun {script text w h h₁ ms w' h₂} hI hleg => ⟨hleg.sound hI.1, by
      rw [hleg.round.trail.reached.record, recordAfter, hleg.quiet.store, hI.2, Option.some_or]⟩) limit (w := w) hI
  exact hkept

theorem record_of_walk {key : String} {r : Record} {limit : Nat} {w : Walk} {h h' : Host σ}
    {answer : Except HostError Graph} (hm : h.memo.Sound) (hwalk : walk limit w d h = (answer, h'))
    (hr : h.store.get? key = some r) : h'.store.get? key = some r := by
  have hkept := walk_keeps_record (d := d) key r limit w h ⟨hm, hr⟩
  rw [hwalk] at hkept
  exact hkept.2

/-- What a walk from `h` to `h'` has done: it has an itinerary, and its graph says what has been met. -/
structure Tour (d : Disk) (w : Walk) (h : Host σ) (visits : List (Visit σ)) (meetings : List (Meeting σ))
    (graph : Graph) (h' : Host σ) : Prop where
  itinerary : Itinerary d w.visited h w.queue visits meetings h'
  left : ∀ v ∈ visits, Onward d v.host h'
  edges : graph.edges = w.graph.edges ++ meetings.map Meeting.edge
  files : ∀ {mentioned}, w.graph.files = List.eraseDups mentioned → (∀ x ∈ w.queue, x.1.normalized ∈ mentioned) →
    graph.files = (mentioned ++ meetings.map Meeting.key).eraseDups

namespace Tour

variable {w w' : Walk} {h h₂ h' : Host σ} {visits : List (Visit σ)} {ms meetings : List (Meeting σ)} {graph : Graph}

private theorem nil (graph : Graph) (visited : List String) (h : Host σ) : Tour d ⟨graph, visited, []⟩ h []
    [] graph h where
  itinerary := .nil d visited h
  left v hv := by cases hv
  edges := (List.append_nil graph.edges).symm
  files hfiles _ := by simpa using hfiles

private theorem cons {v : Visit σ} {queue : List (Identity × String)} {imports : List (String × Identity)}
    (hv : Quiet d h v.host) (he : v.host.engineState = h.engineState)
    (hr : Round d v.script imports ⟨w.graph, w.visited, queue⟩ v.host ms w' h₂)
    (himports : imports = identified v.script.resolved (importNames v.host.tools.resolver v.text) d v.host)
    (hq : w.queue = (v.script, v.text) :: queue) (ht : Tour d w' h₂ visits meetings graph h') :
    Tour d w h (v :: visits) (ms ++ meetings) graph h' where
  itinerary := by
    have hi := ht.itinerary
    have hms := hr.imported
    rw [hr.visited, hr.queue] at hi
    rw [himports] at hms
    rw [hq]
    exact .cons hv he hr.trail hms hi
  left u hu := by
    rcases List.mem_cons.1 hu with rfl | hu
    · exact hr.trail.reached.onward.trans ht.itinerary.trail.reached.onward
    · exact ht.left u hu
  edges := by
    rw [ht.edges, hr.recorded, Graph.edges_record, List.map_append, List.append_assoc]
  files {mentioned} hfiles hmentioned := by
    rw [hq] at hmentioned
    obtain ⟨hfirst, hrest⟩ := List.forall_mem_cons.1 hmentioned
    have himporter : ∀ x ∈ ms.map Meeting.edge, x.1 = v.script.normalized := by
      intro x hx
      obtain ⟨m, hm, rfl⟩ := List.mem_map.1 hx
      have hmet : (m.importer, m.name, m.script) ∈ ms.map fun m => (m.importer, m.name, m.script) :=
        List.mem_map_of_mem hm
      rw [hr.imported] at hmet
      obtain ⟨y, -, hy⟩ := List.mem_map.1 hmet
      exact congrArg Identity.normalized (congrArg Prod.fst hy).symm
    have hround := Graph.files_record himporter hfiles hfirst
    rw [List.map_map] at hround
    rw [ht.files (hr.recorded ▸ hround), List.map_append, List.append_assoc]
    · rfl
    · -- what waits after the visit waited before or has been met
      intro x hx
      rw [hr.queue, List.mem_append] at hx
      rcases hx with hx | hx
      · exact List.mem_append_left _ (hrest x hx)
      · obtain ⟨y, hy, rfl⟩ := List.mem_map.1 hx
        obtain ⟨m, hm, hmy, -⟩ := exists_meeting_of_discovered hy
        refine List.mem_append_right _ (List.mem_map.2 ⟨m, hm, ?_⟩)
        exact congrArg Identity.normalized hmy

end Tour

theorem walk_tour {limit : Nat} {w : Walk} {h h' : Host σ} {graph : Graph} (hm : h.memo.Sound)
    (hw : walk limit w d h = (.ok graph, h')) : ∃ visits meetings, Tour d w h visits meetings graph h' := by
  induction limit, w using walk_induction generalizing h with
  | done limit g visited =>
    rw [walk_nil] at hw
    cases hw
    exact ⟨[], [], .nil _ visited _⟩
  | givenUp g visited x queue => cases hw
  | visit limit g visited script text queue ih =>
    obtain ⟨h₁, ms, w', h₂, hleg⟩ := exists_leg (d := d) script text ⟨g, visited, queue⟩ hm
    obtain ⟨visits, meetings, ht⟩ := ih w' (hleg.sound hm) ((hleg.next limit).symm.trans hw)
    have htools : h.tools.resolver = h₁.tools.resolver := by rw [hleg.quiet.tools]
    exact ⟨⟨script, text, h₁⟩ :: visits, ms ++ meetings,
      .cons (v := ⟨script, text, h₁⟩) hleg.quiet hleg.engine hleg.round (by rw [htools]) rfl ht⟩

/-- A walk that is not given up has an itinerary. -/
theorem walk_itinerary {limit : Nat} {w : Walk} {h h' : Host σ} {graph : Graph} (hm : h.memo.Sound)
    (hw : walk limit w d h = (.ok graph, h')) :
    ∃ visits meetings, Itinerary d w.visited h w.queue visits meetings h' := by
  obtain ⟨visits, meetings, ht⟩ := walk_tour hm hw
  exact ⟨visits, meetings, ht.itinerary⟩

/-! ### Closures -/

/-- A script other than the first one was not tracked before and is tracked now. -/
structure TrackedAnew (root : String) (h h' : Host σ) (key : String) : Prop where
  other : key ≠ root
  before : h.store.get? key = none
  after : (h'.store.get? key).isSome

/-- One script imports another that is not excluded and has been tracked anew. -/
structure LeadsTo (root : String) (h h' : Host σ) (meetings : List (Meeting σ)) (a b : Identity) : Prop where
  met : ∃ m ∈ meetings, m.importer = a ∧ m.script = b
  included : h.exclusions.excludes b.normalized = false
  anew : TrackedAnew root h h' b.normalized

section

variable {h start h' : Host σ} {root : Observation} {visits : List (Visit σ)} {meetings : List (Meeting σ)}

/-- The record of a key after a walk is that of the first meeting with the key, if it was not tracked before. -/
private theorem tracked_iff (hi : Itinerary d [root.path] start [(root.identity, root.raw)] visits meetings h')
    {key : String} (hkey : key ≠ root.path) (hnew : start.store.get? key = none) (r : Record) :
    h'.store.get? key = some r ↔ ∃ before m after, meetings = before ++ m :: after ∧ (∀ m' ∈ before, m'.key ≠ key) ∧
      m.key = key ∧ m.record? d = some r := by
  rw [hi.trail.reached.record, recordAfter, hnew, Option.none_or, find?_discovered_eq_some_iff (by simpa using hkey)]

/-- Before the first meeting with a key, the key is as at the start. -/
private theorem host_of_first (hi : Itinerary d [root.path] start [(root.identity, root.raw)] visits meetings h')
    {key : String} (hkey : key ≠ root.path) {before after : List (Meeting σ)} {m : Meeting σ}
    (hms : meetings = before ++ m :: after) (hbefore : ∀ m' ∈ before, m'.key ≠ key) :
    m.host.store.get? key = start.store.get? key := by
  rw [(hi.trail.met hms).record, recordAfter, find?_discovered_eq_none (by simpa using hkey) hbefore, Option.or_none]

/-- The script of the first meeting with a key is tracked if it can be loaded and merged. -/
private theorem tracked_iff_loaded (hi : Itinerary d [root.path] start [(root.identity, root.raw)] visits meetings h')
    {key : String} (hkey : key ≠ root.path) (hnew : start.store.get? key = none) (r : Record) :
    h'.store.get? key = some r ↔ ∃ before m after text content, meetings = before ++ m :: after ∧
      (∀ m' ∈ before, m'.key ≠ key) ∧ m.key = key ∧ d.load (fileOf m.script) = .ok text ∧
      (mergedContent ⟨m.script, text, true⟩ d m.host).1 = .ok content ∧ r = ⟨1, content, text⟩ := by
  rw [tracked_iff hi hkey hnew]
  constructor
  · rintro ⟨before, m, after, hms, hbefore, hmkey, hr⟩
    obtain ⟨-, text, content, htext, hcontent, hr⟩ := Meeting.record?_eq_some_iff.1 hr
    exact ⟨before, m, after, text, content, hms, hbefore, hmkey, htext, hcontent, hr⟩
  · rintro ⟨before, m, after, text, content, hms, hbefore, hmkey, htext, hcontent, hr⟩
    have hhost : m.host.store.get? m.key = none := by
      rw [hmkey, host_of_first hi hkey hms hbefore, hnew]
    exact ⟨before, m, after, hms, hbefore, hmkey,
      Meeting.record?_eq_some_iff.2 ⟨hhost, text, content, htext, hcontent, hr⟩⟩

theorem trackedAnew_of_discovered
    (hi : Itinerary d [root.path] start [(root.identity, root.raw)] visits meetings h')
    (hstart : ∀ key, key ≠ root.path → start.store.get? key = h.store.get? key) {x : Identity × Record}
    (hx : x ∈ discovered d [root.path] meetings) : TrackedAnew root.path h h' x.1.normalized := by
  have hunknown : x.1.normalized ∉ [root.path] := not_mem_of_discovered hx
  have hkey : x.1.normalized ≠ root.path := by simpa using hunknown
  have hfound : ((discovered d [root.path] meetings).find? (·.1.normalized == x.1.normalized)).isSome := by
    rw [List.find?_isSome]
    exact ⟨x, hx, by simp⟩
  obtain ⟨y, hy⟩ := Option.isSome_iff_exists.1 hfound
  obtain ⟨before, m, after, hms, hbefore, hm, hr⟩ :=
    (find?_discovered_eq_some_iff hunknown).1 (by rw [hy]; rfl)
  -- the first meeting with the key has stored a record, so the key was not tracked then
  have hold : start.store.get? x.1.normalized = none := by
    rw [← host_of_first hi hkey hms hbefore, ← hm]
    exact Meeting.untracked_of_record? hr
  refine ⟨hkey, hstart _ hkey ▸ hold, ?_⟩
  rw [hi.trail.reached.record, recordAfter, hold, Option.none_or, hy]
  rfl

private theorem included_of_met (hi : Itinerary d [root.path] start [(root.identity, root.raw)] visits meetings h')
    (hex : start.exclusions = h.exclusions) {m : Meeting σ} (hm : m ∈ meetings) :
    h.exclusions.excludes m.script.normalized = false := by
  obtain ⟨v, hv, hedge⟩ := hi.exists_visit hm
  have := (Visit.mem_imports_iff.1 hedge).2.2.2
  rwa [(hi.looked v hv).exclusions, hex] at this

/-- Every visited script but the first one is led to by scripts that have been tracked anew. -/
private theorem leadsTo_of_visited
    (hi : Itinerary d [root.path] start [(root.identity, root.raw)] visits meetings h')
    (hstart : ∀ key, key ≠ root.path → start.store.get? key = h.store.get? key)
    (hex : start.exclusions = h.exclusions) {v : Visit σ} (hv : v ∈ visits) :
    Relation.ReflTransGen (LeadsTo root.path h h' meetings) root.identity v.script := by
  have hleads : ∀ m ∈ meetings, ∀ x ∈ discovered d [root.path] meetings, x.1 = m.script →
      LeadsTo root.path h h' meetings m.importer m.script := by
    intro m hm x hx hxm
    exact ⟨⟨m, hm, rfl, rfl⟩, included_of_met hi hex hm, hxm ▸ trackedAnew_of_discovered hi hstart hx⟩
  obtain ⟨first, hfirst, hlead⟩ := hi.reflTransGen hleads hv
  rwa [List.mem_singleton.1 hfirst] at hlead

private theorem leadsTo_of_trackedAnew
    (hi : Itinerary d [root.path] start [(root.identity, root.raw)] visits meetings h')
    (hstart : ∀ key, key ≠ root.path → start.store.get? key = h.store.get? key)
    (hex : start.exclusions = h.exclusions) {key : String} (hanew : TrackedAnew root.path h h' key) :
    ∃ i, i.normalized = key ∧ Relation.TransGen (LeadsTo root.path h h' meetings) root.identity i := by
  obtain ⟨r, hr⟩ := Option.isSome_iff_exists.1 hanew.after
  obtain ⟨before, m, after, hms, -, hmkey, -⟩ :=
    (tracked_iff hi hanew.other ((hstart key hanew.other).trans hanew.before) r).1 hr
  have hmem : m ∈ meetings := by
    rw [hms]
    simp
  obtain ⟨v, hv, hedge⟩ := hi.exists_visit hmem
  have hlead := leadsTo_of_visited hi hstart hex hv
  refine ⟨m.script, hmkey, .tail' hlead ⟨⟨m, hmem, (Visit.mem_imports_iff.1 hedge).1, rfl⟩, ?_, ?_⟩⟩
  · exact included_of_met hi hex hmem
  · rw [show m.script.normalized = key from hmkey]
    exact hanew

end

/-- What a closure has done between `h` and `h'`, where `root` is its first script and `start` the host when that has
been stored. -/
structure Expansion (d : Disk) (path : String) (origin : Option String) (h : Host σ) (root : Observation)
    (start : Host σ) (visits : List (Visit σ)) (meetings : List (Meeting σ)) (h' : Host σ) : Prop where
  rooted : ∃ h₀ stored, observe path origin none d h = (.ok root, h₀) ∧ commit root d h₀ = (.ok stored, start)
  itinerary : Itinerary d [root.path] start [(root.identity, root.raw)] visits meetings h'
  /-- Records of other scripts stay as they are. -/
  kept : ∀ {key r}, key ≠ root.path → h.store.get? key = some r → h'.store.get? key = some r
  /-- Another script is tracked anew exactly if the first one that is met with its key can be loaded and merged. -/
  tracked : ∀ {key r}, key ≠ root.path → h.store.get? key = none → (h'.store.get? key = some r ↔
    ∃ before m after text content, meetings = before ++ m :: after ∧ (∀ m' ∈ before, m'.key ≠ key) ∧ m.key = key ∧
      d.load (fileOf m.script) = .ok text ∧ (mergedContent ⟨m.script, text, true⟩ d m.host).1 = .ok content ∧
      r = ⟨1, content, text⟩)
  /-- The first script leads to what is tracked anew, by imports that are not excluded of scripts tracked anew. -/
  led : ∀ {key}, TrackedAnew root.path h h' key →
    ∃ i, i.normalized = key ∧ Relation.TransGen (LeadsTo root.path h h' meetings) root.identity i

/-- A closure changes no record but that of its first script.  Apart from that, a script is tracked anew exactly if it
was not tracked, is met on a breadth-first walk over imports that are not excluded, from the first script and from those
that this walk has tracked, and the first script that is met with its key can be loaded and merged; it gets the version
1 and the loaded text.  So no script is tracked that is excluded or that only scripts import that were tracked
before. -/
theorem expandClosure_tracks {h h' : Host σ} (hr : h.Reachable) {path : String} {origin : Option String}
    {graph : Graph} (hok : expandClosure path origin d h = (.ok graph, h')) :
    ∃ root start visits meetings, Expansion d path origin h root start visits meetings h' := by
  have hm := hr.sound
  obtain ⟨root, h₀, hroot, hok⟩ := Action.bind_eq_ok.1 hok
  obtain ⟨stored, start, hcommit, hok⟩ := Action.bind_eq_ok.1 hok
  have hq := observe_quiet path origin none d h
  rw [hroot] at hq
  have hm₀ := hq.sound hm
  have hwf : root.identity.WellFormed := by
    obtain ⟨i, h₁, hi, ho⟩ := Action.bind_eq_ok.1 hroot
    rw [(observeIdentity_eq_ok.1 ho).2.2.1]
    exact wellFormed_of_identify hm hi
  have honward := commit_onward (.of_wellFormed hwf d) hm₀
  have hrecord := get?_commit (.of_wellFormed hwf d) hm₀
  rw [hcommit] at honward hrecord
  have hstart : ∀ key, key ≠ root.path → start.store.get? key = h.store.get? key := by
    intro key hkey
    rw [hrecord, if_neg hkey, hq.store]
  have hex : start.exclusions = h.exclusions := honward.exclusions.trans hq.exclusions
  obtain ⟨visits, meetings, hi⟩ := walk_itinerary (honward.sound hm₀) hok
  change Itinerary d [root.path] start [(root.identity, root.raw)] visits meetings h' at hi
  refine ⟨root, start, visits, meetings, ⟨h₀, stored, hroot, hcommit⟩, hi, ?_, ?_, ?_⟩
  · intro key r hkey hr
    rw [hi.trail.reached.record, recordAfter, hstart key hkey, hr, Option.some_or]
  · intro key r hkey hnew
    exact tracked_iff_loaded hi hkey ((hstart key hkey).trans hnew) r
  · intro key hanew
    exact leadsTo_of_trackedAnew hi hstart hex hanew

/-- A script is tracked with what it imports. -/
theorem expandClosure_tracks_import :
    ∃ root start visits meetings,
      Expansion ((Disk.empty.write "/r/a.ts" (.text "import './b'")).write "/r/b.ts" (.text "1")) "/r/a.ts" none
        (fresh ⟨Resolution.nodeResolver, Merge.typePrelude, Analysis.SyntaxEngine.engine⟩ .fresh "/r")
        root start visits meetings
        (expandClosure "/r/a.ts" none
          ((Disk.empty.write "/r/a.ts" (.text "import './b'")).write "/r/b.ts" (.text "1"))
          (fresh ⟨Resolution.nodeResolver, Merge.typePrelude, Analysis.SyntaxEngine.engine⟩ .fresh "/r")).2 := by
  have hok : (expandClosure "/r/a.ts" none
      ((Disk.empty.write "/r/a.ts" (.text "import './b'")).write "/r/b.ts" (.text "1"))
      (fresh ⟨Resolution.nodeResolver, Merge.typePrelude, Analysis.SyntaxEngine.engine⟩ .fresh
        "/r")).1.toOption.isSome = true := by
    decide +kernel
  obtain ⟨graph, hgraph⟩ := Option.isSome_iff_exists.1 hok
  exact expandClosure_tracks (unused_fresh ..).reachable (Action.run_of_answer (toOption_eq_some_iff.1 hgraph))

end ScriptHost.Host
