import Mathlib.Data.List.Basic
import Mathlib.Data.List.Induction
import Mathlib.Logic.Relation
import ScriptHost.Proofs.Host.Commit

/-!
# Itineraries

A walk over imports visits scripts, and at each visit it meets the scripts that are imported there.  A meeting counts if
it is the first with a key; then a record may be stored (`Meeting.record?`), and the script is to be visited itself.  So
the scripts that a walk visits after its first ones are those that it has discovered by its meetings (`discovered`), and
its meetings are the imports of its visits, both in the same order: the walk goes breadth first (`Itinerary`).  What is
tracked at any time is what was tracked at the start and what has been discovered since (`recordAfter`, `Trail`).
-/

namespace ScriptHost.Host

open ScriptHost.Path

variable {σ : Type}

/-- A script that is met as an import of another one. -/
structure Meeting (σ : Type) where
  importer : Identity
  name : String
  script : Identity
  /-- The host when the script is met. -/
  host : Host σ

/-- The key of the script that is met. -/
def Meeting.key (m : Meeting σ) : String := m.script.normalized

/-- The record that is stored for the script that is met, unless it is tracked or cannot be loaded or merged. -/
def Meeting.record? (d : Disk) (m : Meeting σ) : Option Record :=
  if m.host.store.contains m.key then none
  else
    (d.load (fileOf m.script)).toOption.bind fun text =>
      (mergedContent ⟨m.script, text, true⟩ d m.host).1.toOption.map fun content => ⟨1, content, text⟩

/-- Only a script that is not tracked gets a record. -/
theorem Meeting.untracked_of_record? {d : Disk} {m : Meeting σ} {r : Record} (hr : m.record? d = some r) :
    m.host.store.get? m.key = none := by
  unfold Meeting.record? at hr
  cases hk : m.host.store.get? m.key with
  | none => rfl
  | some old =>
    rw [if_pos (by rw [Table.contains, hk]; rfl)] at hr
    cases hr

theorem Meeting.record?_eq_some_iff {d : Disk} {m : Meeting σ} {r : Record} :
    m.record? d = some r ↔ m.host.store.get? m.key = none ∧ ∃ text content, d.load (fileOf m.script) = .ok text ∧
      (mergedContent ⟨m.script, text, true⟩ d m.host).1 = .ok content ∧ r = ⟨1, content, text⟩ := by
  constructor
  · intro hr
    have hnew := untracked_of_record? hr
    refine ⟨hnew, ?_⟩
    rw [Meeting.record?, if_neg (by rw [Table.contains, hnew]; decide), Option.bind_eq_some_iff] at hr
    obtain ⟨text, htext, hr⟩ := hr
    rw [Option.map_eq_some_iff] at hr
    obtain ⟨content, hcontent, rfl⟩ := hr
    exact ⟨text, content, toOption_eq_some_iff.1 htext, toOption_eq_some_iff.1 hcontent, rfl⟩
  · rintro ⟨hnew, text, content, htext, hcontent, rfl⟩
    rw [Meeting.record?, if_neg (by rw [Table.contains, hnew]; decide), htext]
    show (mergedContent ⟨m.script, text, true⟩ d m.host).1.toOption.map _ = _
    rw [hcontent]
    rfl

/-- A script whose imports are followed. -/
structure Visit (σ : Type) where
  script : Identity
  text : String
  /-- The host when the imports have been looked up. -/
  host : Host σ

/-- The imports that can be identified and are not excluded, each with the importing script and its name. -/
def Visit.imports (d : Disk) (v : Visit σ) : List (Identity × String × Identity) :=
  ((identified v.script.resolved (importNames v.host.tools.resolver v.text) d v.host).filter fun x =>
    !v.host.exclusions.excludes x.2.normalized).map fun x => (v.script, x.1, x.2)

theorem Visit.mem_imports_iff {d : Disk} {v : Visit σ} {importer i : Identity} {name : String} :
    (importer, name, i) ∈ v.imports d ↔ importer = v.script ∧ name ∈ importNames v.host.tools.resolver v.text ∧
      (identify name (some v.script.resolved) d v.host).1 = .ok i ∧
      v.host.exclusions.excludes i.normalized = false := by
  unfold Visit.imports identified
  simp only [List.mem_map, List.mem_filter, List.mem_filterMap, Option.map_eq_some_iff, Bool.not_eq_true']
  constructor
  · rintro ⟨x, ⟨⟨name', hname, j, hj, rfl⟩, hex⟩, heq⟩
    cases heq
    exact ⟨rfl, hname, toOption_eq_some_iff.1 hj, hex⟩
  · rintro ⟨rfl, hname, hi, hex⟩
    exact ⟨(name, i), ⟨⟨name, hname, i, by rw [hi]; rfl, rfl⟩, hex⟩, rfl⟩

/-! ### What is discovered -/

/-- The keys that are known after meetings. -/
def knownAfter (known : List String) : List (Meeting σ) → List String
  | [] => known
  | m :: rest => if known.contains m.key then knownAfter known rest else knownAfter (m.key :: known) rest

/-- The scripts that are tracked by first meetings, with their records. -/
def discovered (d : Disk) (known : List String) : List (Meeting σ) → List (Identity × Record)
  | [] => []
  | m :: rest =>
    if known.contains m.key then discovered d known rest
    else ((m.record? d).map fun r => (m.script, r)).toList ++ discovered d (m.key :: known) rest

/-- The record of a key after meetings. -/
def recordAfter (d : Disk) (known : List String) (s : Store) (meetings : List (Meeting σ)) (key : String) :
    Option Record :=
  (s.get? key).or (((discovered d known meetings).find? (·.1.normalized == key)).map (·.2))

/-- The state of the engine after meetings. -/
def engineAfter (d : Disk) (known : List String) (s : σ) : List (Meeting σ) → σ
  | [] => s
  | m :: rest =>
    if known.contains m.key then engineAfter d known s rest
    else engineAfter d (m.key :: known) (trackImport m.script d m.host).2.engineState rest

section

variable {d : Disk} {known : List String} {s : Store} {key : String}

theorem knownAfter_cons_of_known {m : Meeting σ} (hm : known.contains m.key = true) (rest : List (Meeting σ)) :
    knownAfter known (m :: rest) = knownAfter known rest := by
  rw [knownAfter, if_pos hm]

theorem knownAfter_cons_of_new {m : Meeting σ} (hm : known.contains m.key = false) (rest : List (Meeting σ)) :
    knownAfter known (m :: rest) = knownAfter (m.key :: known) rest := by
  rw [knownAfter, hm, if_neg (by decide)]

theorem mem_knownAfter_iff {ms : List (Meeting σ)} :
    key ∈ knownAfter known ms ↔ key ∈ known ∨ ∃ m ∈ ms, m.key = key := by
  induction ms generalizing known with
  | nil => simp [knownAfter]
  | cons m rest ih =>
    unfold knownAfter
    split
    · rename_i hm
      have hknown : m.key ∈ known := by simpa using hm
      rw [ih, List.exists_mem_cons_iff]
      refine ⟨fun h => h.imp_right .inr, ?_⟩
      rintro (h | rfl | h)
      · exact .inl h
      · exact .inl hknown
      · exact .inr h
    · rw [ih, List.mem_cons, List.exists_mem_cons_iff, eq_comm (a := key), or_comm (a := m.key = key), or_assoc]

theorem discovered_cons_of_known {m : Meeting σ} (hm : known.contains m.key = true) (rest : List (Meeting σ)) :
    discovered d known (m :: rest) = discovered d known rest := by
  rw [discovered, if_pos hm]

theorem discovered_cons_of_new {m : Meeting σ} (hm : known.contains m.key = false) (rest : List (Meeting σ)) :
    discovered d known (m :: rest) =
      ((m.record? d).map fun r => (m.script, r)).toList ++ discovered d (m.key :: known) rest := by
  rw [discovered, hm, if_neg (by decide)]

private theorem engineAfter_append (d : Disk) (known : List String) (s : σ) (ms ms' : List (Meeting σ)) :
    engineAfter d known s (ms ++ ms') = engineAfter d (knownAfter known ms) (engineAfter d known s ms) ms' := by
  induction ms generalizing known s with
  | nil => rfl
  | cons m rest ih =>
    simp only [List.cons_append, engineAfter, knownAfter]
    split
    · exact ih known s
    · exact ih (m.key :: known) _

theorem discovered_append (d : Disk) (known : List String) (ms ms' : List (Meeting σ)) :
    discovered d known (ms ++ ms') = discovered d known ms ++ discovered d (knownAfter known ms) ms' := by
  induction ms generalizing known with
  | nil => rfl
  | cons m rest ih =>
    simp only [List.cons_append, discovered, knownAfter]
    split
    · exact ih known
    · rw [ih (m.key :: known), List.append_assoc]

private theorem recordAfter_append {s s' : Store} {ms : List (Meeting σ)}
    (hs : ∀ key, s'.get? key = recordAfter d known s ms key) (ms' : List (Meeting σ)) (key : String) :
    recordAfter d known s (ms ++ ms') key = recordAfter d (knownAfter known ms) s' ms' key := by
  unfold recordAfter
  rw [hs key, recordAfter, discovered_append, List.find?_append]
  cases s.get? key <;> cases (discovered d known ms).find? (·.1.normalized == key) <;> rfl

/-- What is discovered was not known before. -/
theorem not_mem_of_discovered {ms : List (Meeting σ)} {x : Identity × Record} (hx : x ∈ discovered d known ms) :
    x.1.normalized ∉ known := by
  induction ms generalizing known with
  | nil => cases hx
  | cons m rest ih =>
    unfold discovered at hx
    split at hx
    · exact ih hx
    · rename_i hm
      rcases List.mem_append.1 hx with hx | hx
      · rw [Option.mem_toList, Option.map_eq_some_iff] at hx
        obtain ⟨r, -, rfl⟩ := hx
        simpa [Meeting.key] using hm
      · exact fun hknown => ih hx (List.mem_cons_of_mem _ hknown)

theorem exists_meeting_of_discovered {ms : List (Meeting σ)} {x : Identity × Record} (hx : x ∈ discovered d known ms) :
    ∃ m ∈ ms, m.script = x.1 ∧ m.record? d = some x.2 := by
  induction ms generalizing known with
  | nil => cases hx
  | cons m rest ih =>
    have later : ∀ {known}, x ∈ discovered d known rest →
        ∃ m' ∈ m :: rest, m'.script = x.1 ∧ m'.record? d = some x.2 := by
      intro known hx
      obtain ⟨m', hm', hscript⟩ := ih hx
      exact ⟨m', List.mem_cons_of_mem _ hm', hscript⟩
    unfold discovered at hx
    split at hx
    · exact later hx
    · rcases List.mem_append.1 hx with hx | hx
      · rw [Option.mem_toList, Option.map_eq_some_iff] at hx
        obtain ⟨r, hr, rfl⟩ := hx
        exact ⟨m, List.mem_cons_self, rfl, hr⟩
      · exact later hx

private theorem find?_discovered_of_key (hkey : key ∉ known) {m : Meeting σ} (hm : m.key = key)
    (rest : List (Meeting σ)) :
    ((discovered d known (m :: rest)).find? (·.1.normalized == key)).map (·.2) = m.record? d := by
  have hlater : (discovered d (m.key :: known) rest).find? (·.1.normalized == key) = none := by
    rw [List.find?_eq_none]
    intro x hx hxkey
    exact not_mem_of_discovered hx (by simp [hm, beq_iff_eq.1 hxkey])
  have hnew : known.contains m.key = false := by
    simpa [hm] using hkey
  rw [discovered_cons_of_new hnew, List.find?_append, hlater]
  cases m.record? d with
  | none => rfl
  | some r =>
    have : m.script.normalized = key := hm
    simp [this]

private theorem find?_discovered_of_ne (hkey : key ∉ known) {m : Meeting σ} (hm : m.key ≠ key)
    (rest : List (Meeting σ)) : ∃ known', key ∉ known' ∧
      ((discovered d known (m :: rest)).find? (·.1.normalized == key)).map (·.2) =
        ((discovered d known' rest).find? (·.1.normalized == key)).map (·.2) := by
  cases hc : known.contains m.key with
  | true => exact ⟨known, hkey, by rw [discovered_cons_of_known hc]⟩
  | false =>
    refine ⟨m.key :: known, by simp [hkey, Ne.symm hm], ?_⟩
    have hne : (m.script.normalized == key) = false := by
      simpa [Meeting.key] using hm
    rw [discovered_cons_of_new hc, List.find?_append]
    cases m.record? d <;> simp [hne]

private theorem exists_first_of_key {m : Meeting σ} (hm : m.key = key) {rest : List (Meeting σ)}
    {p : Meeting σ → Prop} : (∃ before m' after, m :: rest = before ++ m' :: after ∧
      (∀ m₁ ∈ before, m₁.key ≠ key) ∧ m'.key = key ∧ p m') ↔ p m := by
  constructor
  · rintro ⟨before, m', after, heq, hbefore, -, hp⟩
    cases before with
    | nil =>
      obtain ⟨rfl, -⟩ := List.cons.inj heq
      exact hp
    | cons m₁ before =>
      obtain ⟨rfl, -⟩ := List.cons.inj heq
      exact absurd hm (hbefore m List.mem_cons_self)
  · intro hp
    exact ⟨[], m, rest, rfl, by simp, hm, hp⟩

private theorem exists_first_of_ne {m : Meeting σ} (hm : m.key ≠ key) {rest : List (Meeting σ)}
    {p : Meeting σ → Prop} : (∃ before m' after, m :: rest = before ++ m' :: after ∧
      (∀ m₁ ∈ before, m₁.key ≠ key) ∧ m'.key = key ∧ p m') ↔
    ∃ before m' after, rest = before ++ m' :: after ∧ (∀ m₁ ∈ before, m₁.key ≠ key) ∧ m'.key = key ∧ p m' := by
  constructor
  · rintro ⟨before, m', after, heq, hbefore, hm', hp⟩
    cases before with
    | nil =>
      obtain ⟨rfl, -⟩ := List.cons.inj heq
      exact absurd hm' hm
    | cons m₁ before =>
      obtain ⟨rfl, rfl⟩ := List.cons.inj heq
      exact ⟨before, m', after, rfl, (List.forall_mem_cons.1 hbefore).2, hm', hp⟩
  · rintro ⟨before, m', after, rfl, hbefore, hm', hp⟩
    exact ⟨m :: before, m', after, rfl, List.forall_mem_cons.2 ⟨hm, hbefore⟩, hm', hp⟩

theorem find?_discovered_eq_some_iff {ms : List (Meeting σ)} (hkey : key ∉ known) {r : Record} :
    ((discovered d known ms).find? (·.1.normalized == key)).map (·.2) = some r ↔
      ∃ before m after, ms = before ++ m :: after ∧ (∀ m' ∈ before, m'.key ≠ key) ∧ m.key = key ∧
        m.record? d = some r := by
  induction ms generalizing known with
  | nil => simp [discovered]
  | cons m rest ih =>
    by_cases hm : m.key = key
    · rw [find?_discovered_of_key hkey hm, exists_first_of_key hm]
    · obtain ⟨known', hkey', hsame⟩ := find?_discovered_of_ne (d := d) hkey hm rest
      rw [hsame, exists_first_of_ne hm, ih hkey']

theorem find?_discovered_eq_none {ms : List (Meeting σ)} (hkey : key ∉ known) (hms : ∀ m ∈ ms, m.key ≠ key) :
    ((discovered d known ms).find? (·.1.normalized == key)).map (·.2) = none := by
  refine Option.eq_none_iff_forall_ne_some.2 fun r hr => ?_
  obtain ⟨before, m, after, rfl, -, hm, -⟩ := (find?_discovered_eq_some_iff hkey).1 hr
  exact hms m (by simp) hm

end

/-! ### Trails -/

/-- From `h` to `h'`, scripts have been met, those that were discovered have been tracked, and nothing else has happened
but that things have been looked up. -/
structure Reached (d : Disk) (known : List String) (h : Host σ) (meetings : List (Meeting σ)) (h' : Host σ) : Prop where
  onward : Onward d h h'
  record : ∀ key, h'.store.get? key = recordAfter d known h.store meetings key
  engine : h'.engineState = engineAfter d known h.engineState meetings

namespace Reached

variable {d : Disk} {known : List String} {h h₁ h₂ : Host σ} {ms ms' : List (Meeting σ)}

theorem nil (known : List String) (hq : Quiet d h h₁) (he : h₁.engineState = h.engineState) :
    Reached d known h [] h₁ := by
  refine ⟨hq.toOnward, fun key => ?_, he⟩
  rw [hq.store, recordAfter, discovered]
  simp

private theorem append (hr : Reached d known h ms h₁) (hr' : Reached d (knownAfter known ms) h₁ ms' h₂) :
    Reached d known h (ms ++ ms') h₂ := by
  refine ⟨hr.onward.trans hr'.onward, fun key => ?_, ?_⟩
  · rw [hr'.record, recordAfter_append hr.record]
  · rw [hr'.engine, engineAfter_append, hr.engine]

/-- A meeting that is not the first one with its key changes nothing. -/
theorem of_known {m : Meeting σ} (hm : known.contains m.key = true) : Reached d known m.host [m] m.host := by
  refine ⟨.refl d m.host, fun key => ?_, ?_⟩
  · rw [recordAfter, discovered_cons_of_known hm]
    simp [discovered]
  · rw [engineAfter, if_pos hm, engineAfter]

/-- At a first meeting, the script is tracked with its record, if it gets one. -/
theorem of_new {m : Meeting σ} (hm : known.contains m.key = false) (ho : Onward d m.host h₁)
    (hr : ∀ key, h₁.store.get? key =
      if key = m.key then (m.record? d).or (m.host.store.get? key) else m.host.store.get? key)
    (he : h₁.engineState = (trackImport m.script d m.host).2.engineState) : Reached d known m.host [m] h₁ := by
  refine ⟨ho, fun key => ?_, ?_⟩
  · rw [hr, recordAfter, discovered_cons_of_new hm]
    cases hrec : m.record? d with
    | none => simp [discovered]
    | some r =>
      by_cases hkey : key = m.key
      · subst hkey
        rw [if_pos rfl, Meeting.untracked_of_record? hrec]
        simp [discovered, Meeting.key]
      · have : (m.script.normalized == key) = false := by
          simpa [Meeting.key] using Ne.symm hkey
        simp [hkey, this, discovered]
  · rw [engineAfter, hm, if_neg (by decide), he, engineAfter]

end Reached

/-- Meetings lead from `h` to `h'`, and the host of each meeting is reached by those before it. -/
structure Trail (d : Disk) (known : List String) (h : Host σ) (meetings : List (Meeting σ)) (h' : Host σ) : Prop where
  reached : Reached d known h meetings h'
  met : ∀ {before m after}, meetings = before ++ m :: after → Reached d known h before m.host

namespace Trail

variable {d : Disk} {known : List String} {h h₁ h₂ : Host σ} {ms ms' : List (Meeting σ)}

theorem nil (hr : Reached d known h [] h₁) : Trail d known h [] h₁ := ⟨hr, fun heq => by simp at heq⟩

theorem singleton {m : Meeting σ} (hr : Reached d known m.host [m] h₁) : Trail d known m.host [m] h₁ := by
  refine ⟨hr, fun {before m' after} heq => ?_⟩
  cases before with
  | nil =>
    obtain ⟨rfl, -⟩ := List.cons.inj heq
    exact .nil known (.refl d m.host) rfl
  | cons m₁ before => simp at heq

theorem append (ht : Trail d known h ms h₁) (ht' : Trail d (knownAfter known ms) h₁ ms' h₂) :
    Trail d known h (ms ++ ms') h₂ := by
  refine ⟨ht.reached.append ht'.reached, fun {before m after} heq => ?_⟩
  rcases List.append_eq_append_iff.1 heq with ⟨rest, rfl, hrest⟩ | ⟨rest, rfl, hrest⟩
  · exact ht.reached.append (ht'.met hrest)
  · cases rest with
    | nil =>
      have hreached := ht.reached.append (ht'.met (show ms' = [] ++ m :: after from hrest.symm))
      rwa [List.append_nil, List.append_nil] at hreached
    | cons m₁ rest =>
      obtain ⟨rfl, rfl⟩ := List.cons.inj hrest
      exact ht.met rfl

/-- What is tracked at a meeting stays as it is. -/
theorem keeps_record (ht : Trail d known h ms h₁) {before after : List (Meeting σ)} {m : Meeting σ}
    (hms : ms = before ++ m :: after) {key : String} {r : Record} (hr : m.host.store.get? key = some r) :
    h₁.store.get? key = some r := by
  rw [(ht.met hms).record] at hr
  rw [ht.reached.record, hms]
  unfold recordAfter at hr ⊢
  rw [discovered_append, List.find?_append]
  cases hold : h.store.get? key with
  | some r' => rwa [hold] at hr
  | none =>
    rw [hold, Option.none_or] at hr
    obtain ⟨x, hx, rfl⟩ := Option.map_eq_some_iff.1 hr
    rw [hx]
    rfl

/-- Where nothing is discovered, all scripts are met with the same records. -/
theorem unchanged (ht : Trail d known h ms h₁) {before after : List (Meeting σ)} {m : Meeting σ}
    (hms : ms = before ++ m :: after) (hnone : discovered d known before = []) (key : String) :
    m.host.store.get? key = h.store.get? key := by
  rw [(ht.met hms).record, recordAfter, hnone]
  exact Option.or_none

/-- Nothing is discovered if and only if no first meeting with a key, with the records as they were, gives one. -/
theorem discovered_eq_nil_iff (ht : Trail d known h ms h₁) :
    discovered d known ms = [] ↔ ∀ before m after, ms = before ++ m :: after → m.key ∉ known →
      (∀ m' ∈ before, m'.key ≠ m.key) → (∀ key, m.host.store.get? key = h.store.get? key) → m.record? d = none := by
  constructor
  · intro hnone before m after hms hknown hfirst _
    refine Option.eq_none_iff_forall_ne_some.2 fun r hr => ?_
    have hfound := (find?_discovered_eq_some_iff hknown).2 ⟨before, m, after, hms, hfirst, rfl, hr⟩
    rw [hnone] at hfound
    cases hfound
  · intro hnone
    have hprefix : ∀ before after, ms = before ++ after → discovered d known before = [] := by
      intro before
      -- by induction on the number of meetings so far
      induction before using List.reverseRecOn with
      | nil => exact fun _ _ => rfl
      | append_singleton before m ih =>
        intro after hms
        rw [List.append_assoc, List.singleton_append] at hms
        have hearlier := ih _ hms
        rw [discovered_append, hearlier, List.nil_append]
        cases hknown : (knownAfter known before).contains m.key with
        | true => rw [discovered_cons_of_known hknown, discovered]
        | false =>
          have hnew : ¬ (m.key ∈ known ∨ ∃ m' ∈ before, m'.key = m.key) := by
            rw [← mem_knownAfter_iff]
            simpa using hknown
          rw [not_or, not_exists] at hnew
          rw [discovered_cons_of_new hknown, discovered, hnone before m after hms hnew.1
            (fun m' hm' hkey => hnew.2 m' ⟨hm', hkey⟩) (ht.unchanged hms hearlier)]
          rfl
    exact hprefix ms [] (List.append_nil ms).symm

end Trail

/-- A walk from scripts that wait to be visited.  After them, the discovered scripts are visited in the order of their
discovery; the meetings are the imports of the visited scripts in the order of the visits; and a script does not come
before the one by which it is met. -/
structure Itinerary (d : Disk) (known : List String) (h : Host σ) (waiting : List (Identity × String))
    (visits : List (Visit σ)) (meetings : List (Meeting σ)) (h' : Host σ) : Prop where
  visited : visits.map (fun v => (v.script, v.text)) =
    waiting ++ (discovered d known meetings).map fun x => (x.1, x.2.rawContent)
  imported : meetings.map (fun m => (m.importer, m.name, m.script)) = visits.flatMap (·.imports d)
  earlier : ∀ {before v after}, visits = before ++ v :: after →
    v.script ∈ waiting.map Prod.fst ∨ ∃ u ∈ before, ∃ m ∈ meetings, m.importer = u.script ∧ m.script = v.script
  trail : Trail d known h meetings h'
  looked : ∀ v ∈ visits, Onward d h v.host

namespace Itinerary

variable {d : Disk} {known : List String} {h h₁ h₂ h' : Host σ} {waiting : List (Identity × String)}
  {visits : List (Visit σ)} {ms meetings : List (Meeting σ)}

theorem nil (d : Disk) (known : List String) (h : Host σ) : Itinerary d known h [] [] [] h where
  visited := rfl
  imported := rfl
  earlier heq := by simp at heq
  trail := .nil (.nil known (.refl d h) rfl)
  looked v hv := by cases hv

/-- The first script that waits is visited, and then the walk goes on with the others and with those that have been
discovered. -/
theorem cons {v : Visit σ} (hv : Quiet d h v.host) (he : v.host.engineState = h.engineState)
    (ht : Trail d known v.host ms h₂)
    (hms : ms.map (fun m => (m.importer, m.name, m.script)) = v.imports d)
    (hi : Itinerary d (knownAfter known ms) h₂
      (waiting ++ (discovered d known ms).map fun x => (x.1, x.2.rawContent)) visits meetings h') :
    Itinerary d known h ((v.script, v.text) :: waiting) (v :: visits) (ms ++ meetings) h' where
  visited := by
    rw [List.map_cons, hi.visited, discovered_append, List.map_append, List.cons_append, List.append_assoc]
  imported := by
    rw [List.map_append, hms, hi.imported, List.flatMap_cons]
  earlier {before u after} heq := by
    cases before with
    | nil =>
      obtain ⟨rfl, -⟩ := List.cons.inj heq
      exact .inl List.mem_cons_self
    | cons v' before =>
      obtain ⟨rfl, hrest⟩ := List.cons.inj heq
      rcases hi.earlier hrest with hwait | ⟨w, hw, m, hm, himp, hscript⟩
      · rw [List.map_append, List.mem_append] at hwait
        rcases hwait with hwait | hfound
        · exact .inl (List.mem_cons_of_mem _ hwait)
        · -- it has been discovered at this visit
          rw [List.map_map, List.mem_map] at hfound
          obtain ⟨x, hx, hxu⟩ := hfound
          obtain ⟨m, hm, hmx, -⟩ := exists_meeting_of_discovered hx
          refine .inr ⟨v, List.mem_cons_self, m, List.mem_append_left _ hm, ?_, hmx.trans hxu⟩
          have hedge : (m.importer, m.name, m.script) ∈ v.imports d := by
            rw [← hms]
            exact List.mem_map_of_mem hm
          exact (Visit.mem_imports_iff.1 hedge).1
      · exact .inr ⟨w, List.mem_cons_of_mem _ hw, m, List.mem_append_right _ hm, himp, hscript⟩
  trail := by
    have := (Trail.nil (.nil known hv he)).append (ht.append hi.trail)
    simpa using this
  looked u hu := by
    rcases List.mem_cons.1 hu with rfl | hu
    · exact hv.toOnward
    · exact hv.toOnward.trans (ht.reached.onward.trans (hi.looked u hu))

theorem exists_visit (hi : Itinerary d known h waiting visits meetings h') {m : Meeting σ} (hm : m ∈ meetings) :
    ∃ v ∈ visits, (m.importer, m.name, m.script) ∈ v.imports d := by
  have hedge : (m.importer, m.name, m.script) ∈ meetings.map (fun m => (m.importer, m.name, m.script)) :=
    List.mem_map_of_mem hm
  rw [hi.imported] at hedge
  exact List.mem_flatMap.1 hedge

/-- A visited script waits at the start or has been discovered. -/
theorem waiting_or_discovered (hi : Itinerary d known h waiting visits meetings h') {v : Visit σ} (hv : v ∈ visits) :
    (v.script, v.text) ∈ waiting ∨ ∃ x ∈ discovered d known meetings, x.1 = v.script ∧ x.2.rawContent = v.text := by
  have hstop : (v.script, v.text) ∈ visits.map fun v => (v.script, v.text) := List.mem_map_of_mem hv
  rw [hi.visited, List.mem_append] at hstop
  refine hstop.imp_right fun hfound => ?_
  obtain ⟨x, hx, hxv⟩ := List.mem_map.1 hfound
  exact ⟨x, hx, congrArg Prod.fst hxv, congrArg Prod.snd hxv⟩

/-- A relation that holds between importers and the discovered scripts that they import leads from the scripts that wait
to all that are visited. -/
theorem reflTransGen (hi : Itinerary d known h waiting visits meetings h') {R : Identity → Identity → Prop}
    (hR : ∀ m ∈ meetings, ∀ x ∈ discovered d known meetings, x.1 = m.script → R m.importer m.script) {v : Visit σ}
    (hv : v ∈ visits) : ∃ first ∈ waiting.map Prod.fst, Relation.ReflTransGen R first v.script := by
  obtain ⟨before, after, hsplit⟩ := List.append_of_mem hv
  -- by induction on the number of earlier visits
  induction hn : before.length using Nat.strongRecOn generalizing before after v with
  | ind n ih =>
    rcases hi.waiting_or_discovered hv with hwait | ⟨x, hx, hxv, -⟩
    · exact ⟨v.script, List.mem_map_of_mem hwait, .refl⟩
    · rcases hi.earlier hsplit with hwait | ⟨u, hu, m, hm, himporter, hscript⟩
      · exact ⟨v.script, hwait, .refl⟩
      · -- the script by which it was met has been visited before
        obtain ⟨b₁, b₂, rfl⟩ := List.append_of_mem hu
        have hlt : b₁.length < n := by
          rw [← hn, List.length_append, List.length_cons]
          omega
        have hu' : u ∈ visits := by
          rw [hsplit]
          simp
        obtain ⟨first, hfirst, hlead⟩ :=
          ih b₁.length hlt hu' b₁ (b₂ ++ v :: after) (by rw [hsplit, List.append_assoc, List.cons_append]) rfl
        have hlast := hR m hm x hx (hxv.trans hscript.symm)
        rw [himporter, hscript] at hlast
        exact ⟨first, hfirst, hlead.tail hlast⟩

end Itinerary

end ScriptHost.Host
